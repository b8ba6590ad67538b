import LogConsumer.Pattern.Search
import LogConsumer.Proofs.Language
import Mathlib.Data.List.Infix
import Mathlib.Data.List.Perm.Subperm
import Mathlib.Data.List.ProdSigma
import Mathlib.Logic.Relation

/-! The search finds a match where there is one. A thread leads to an end exactly if its tasks match,
and there are so few threads that the bound on the search is never met. Main statements:
`findFrom_eq_some` and `findFrom_ne_none`. -/
namespace LogConsumer

variable {size : Nat}

section Matching

namespace Task

variable {task task' : Task} {tasks tasks' : List Task} {cs rest : List Char} {branch : List Bool}
  {p : Pattern} {least : Nat} {most : Option Nat} {greedy : Bool}

def Matches (size : Nat) : Task → List Char → List Char → Prop
  | read _ p => p.Matches size
  | again _ p greedy => (Pattern.repeated p 0 none greedy).Matches size

def AllMatch (size : Nat) : List Task → List Char → List Char → Prop
  | [], cs, rest => rest = cs
  | task :: tasks, cs, rest => ∃ mid, task.Matches size cs mid ∧ AllMatch size tasks mid rest

theorem allMatch_append_iff : AllMatch size (tasks ++ tasks') cs rest ↔
    ∃ mid, AllMatch size tasks cs mid ∧ AllMatch size tasks' mid rest := by
  induction tasks generalizing cs with
  | nil => simp [AllMatch]
  | cons task tasks ih =>
    simp only [List.cons_append, AllMatch, ih]
    constructor
    · rintro ⟨m, h, mid, hmid, hrest⟩
      exact ⟨mid, ⟨m, h, hmid⟩, hrest⟩
    · rintro ⟨mid, ⟨m, h, hmid⟩, hrest⟩
      exact ⟨m, h, mid, hmid, hrest⟩

theorem allMatch_singleton_iff : AllMatch size [task] cs rest ↔ task.Matches size cs rest := by
  simp [AllMatch]

theorem allMatch_pair_iff : AllMatch size [task, task'] cs rest ↔
    ∃ mid, task.Matches size cs mid ∧ task'.Matches size mid rest := by
  simp [AllMatch]

theorem matches_afterRound_iff : (afterRound branch p least most greedy).Matches size cs rest ↔
    (Pattern.repeated p (least - 1) (most.map (· - 1)) greedy).Matches size cs rest := by
  unfold afterRound
  split
  · split <;> rfl
  all_goals rfl

theorem matches_of_mem_next {t : Thread} (h : t ∈ task.next size cs)
    (ht : AllMatch size t.tasks t.rest rest) : task.Matches size cs rest := by
  cases task with
  | again branch p greedy =>
    rw [Matches, Pattern.matches_repeated_iff]
    rcases Thread.mem_prefer_iff.1 h with rfl | rfl
    · exact .inr ⟨.inr nofun, allMatch_pair_iff.1 ht⟩
    · exact .inl ⟨rfl, ht⟩
  | read branch p =>
    cases p with
    | empty =>
      obtain rfl := List.mem_singleton.1 h
      exact ht
    | chars set =>
      rcases cs with _ | ⟨c, cs⟩
      · cases h
      · by_cases hin : set.contains c = true
        · obtain rfl : t = ⟨cs, []⟩ := by simpa [next, hin] using h
          obtain rfl : rest = cs := ht
          exact ⟨c, rfl, hin⟩
        · simp [next, hin] at h
    | start =>
      by_cases hsize : cs.length = size
      · obtain rfl : t = ⟨cs, []⟩ := by simpa [next, hsize] using h
        exact ⟨ht, hsize⟩
      · simp [next, hsize] at h
    | finish =>
      rcases cs with _ | ⟨c, cs⟩
      · obtain rfl : t = ⟨[], []⟩ := by simpa [next] using h
        exact ⟨ht, rfl⟩
      · simp [next] at h
    | seq p q =>
      obtain rfl := List.mem_singleton.1 h
      exact allMatch_pair_iff.1 ht
    | alt p q =>
      obtain rfl | rfl : t = _ ∨ t = _ := by simpa [next] using h
      · exact .inl (allMatch_singleton_iff.1 ht)
      · exact .inr (allMatch_singleton_iff.1 ht)
    | repeated p least most greedy =>
      rw [Matches, Pattern.matches_repeated_iff]
      rcases mem_next_repeated_iff.1 h with ⟨hround, rfl⟩ | ⟨hleast, rfl⟩
      · obtain ⟨mid, hp, hafter⟩ := allMatch_pair_iff.1 ht
        exact .inr ⟨hround, mid, hp, matches_afterRound_iff.1 hafter⟩
      · exact .inl ⟨hleast, ht⟩

end Task

def Thread.Leads (size : Nat) : Thread → Thread → Prop :=
  Relation.ReflTransGen fun t u => u ∈ t.next size

namespace Thread

variable {task : Task} {tasks : List Task} {cs rest : List Char} {t u : Thread} {p : Pattern}

theorem allMatch_of_leads (h : Leads size t ⟨rest, []⟩) :
    Task.AllMatch size t.tasks t.rest rest := by
  induction h using Relation.ReflTransGen.head_induction_on with
  | refl => rfl
  | @head t u hstep _ ih =>
    obtain ⟨cs, _ | ⟨task, tasks⟩⟩ := t
    · cases hstep
    · obtain ⟨v, hv, rfl⟩ := mem_next_cons_iff.1 hstep
      obtain ⟨mid, hfirst, hlast⟩ := Task.allMatch_append_iff.1 ih
      exact ⟨mid, Task.matches_of_mem_next hv hfirst, hlast⟩

theorem leads_of_mem_next (h : u ∈ task.next size cs)
    (hlead : Leads size ⟨u.rest, u.tasks ++ tasks⟩ t) : Leads size ⟨cs, task :: tasks⟩ t :=
  .head (mem_next_cons_iff.2 ⟨u, h, rfl⟩) hlead

section Repetition

variable (hp : ∀ {cs mid branch tasks}, p.Matches size cs mid →
    Leads size ⟨cs, .read branch p :: tasks⟩ ⟨mid, tasks⟩)
include hp

theorem leads_again {n : Nat} {branch : List Bool} {greedy : Bool}
    (h : Pattern.Chain (p.Matches size) n cs rest) :
    Leads size ⟨cs, .again branch p greedy :: tasks⟩ ⟨rest, tasks⟩ := by
  induction h with
  | nil => exact leads_of_mem_next (mem_prefer_iff.2 (.inr rfl)) .refl
  | cons h _ ih => exact leads_of_mem_next (mem_prefer_iff.2 (.inl rfl)) ((hp h).trans ih)

theorem leads_repeated {n least : Nat} {most : Option Nat} {branch : List Bool} {greedy : Bool}
    (hleast : least ≤ n) (hmost : ∀ m ∈ most, n ≤ max least m)
    (h : Pattern.Chain (p.Matches size) n cs rest) :
    Leads size ⟨cs, .read branch (.repeated p least most greedy) :: tasks⟩ ⟨rest, tasks⟩ := by
  induction h generalizing least most with
  | nil =>
    exact leads_of_mem_next (Task.mem_next_repeated_iff.2 (.inr ⟨by omega, rfl⟩)) .refl
  | @cons n cs mid rest h hrest ih =>
    have hround : 0 < least ∨ most ≠ some 0 := by
      refine (Nat.eq_zero_or_pos least).elim (fun hzero => .inr fun heq => ?_) .inl
      have := hmost 0 heq
      omega
    refine leads_of_mem_next (Task.mem_next_repeated_iff.2 (.inl ⟨hround, rfl⟩)) ((hp h).trans ?_)
    unfold Task.afterRound
    split
    · split
      · exact leads_again hp hrest
      · exact ih (Nat.zero_le _) nofun
    · exact leads_again hp hrest
    · refine ih (by omega) fun k hk => ?_
      obtain ⟨m, hm, rfl⟩ := Option.map_eq_some_iff.1 hk
      have := hmost m hm
      omega

end Repetition

/-- Where a pattern matches, the search can come to its end. -/
theorem leads_of_matches (h : p.Matches size cs rest) (branch : List Bool) :
    Leads size ⟨cs, .read branch p :: tasks⟩ ⟨rest, tasks⟩ := by
  induction p generalizing cs rest branch tasks with
  | empty =>
    obtain rfl := h
    exact leads_of_mem_next (List.mem_singleton.2 rfl) .refl
  | chars set =>
    obtain ⟨c, rfl, hin⟩ := h
    exact leads_of_mem_next (u := ⟨rest, []⟩) (by simp [Task.next, hin]) .refl
  | start =>
    obtain ⟨rfl, hsize⟩ := h
    exact leads_of_mem_next (u := ⟨rest, []⟩) (by simp [Task.next, hsize]) .refl
  | finish =>
    obtain ⟨rfl, rfl⟩ := h
    exact leads_of_mem_next (u := ⟨[], []⟩) (by simp [Task.next]) .refl
  | seq p q ihp ihq =>
    obtain ⟨mid, hp, hq⟩ := h
    exact leads_of_mem_next (List.mem_singleton.2 rfl) ((ihp hp branch).trans (ihq hq branch))
  | alt p q ihp ihq =>
    rcases h with h | h
    · exact leads_of_mem_next (List.mem_cons_self ..) (ihp h _)
    · exact leads_of_mem_next (List.mem_cons_of_mem _ (List.mem_singleton.2 rfl)) (ihq h _)
  | repeated p least most greedy ih =>
    obtain ⟨n, hleast, hmost, hchain⟩ := h
    exact leads_repeated (fun h => ih h _) hleast hmost hchain

end Thread

end Matching

section Bound

namespace Thread

/-- One step from the lists of tasks in `met` comes to those in `all`. -/
def Closed (size : Nat) (met all : List (List Task)) : Prop :=
  ∀ a ∈ met, ∀ cs, ∀ t ∈ next size ⟨cs, a⟩, t.tasks ∈ all

/-- From the tasks `a` on, a search comes to at most `n` lists of tasks before it comes to `k`. -/
def Within (size n : Nat) (a k : List Task) : Prop :=
  ∃ met, met.length ≤ n ∧ a ∈ met ∧ Closed size met (k :: met)

variable {n m : Nat} {a b c k : List Task} {met met' all all' : List (List Task)}

theorem Closed.mono (h : Closed size met all) (hsub : all ⊆ all') : Closed size met all' :=
  fun a ha cs t ht => hsub (h a ha cs t ht)

theorem Closed.append (h : Closed size met all) (h' : Closed size met' all) :
    Closed size (met ++ met') all :=
  List.forall_mem_append.2 ⟨h, h'⟩

theorem Closed.cons (ha : ∀ cs, ∀ t ∈ next size ⟨cs, a⟩, t.tasks ∈ all) (h : Closed size met all) :
    Closed size (a :: met) all :=
  List.forall_mem_cons.2 ⟨ha, h⟩

namespace Within

theorem mono (h : Within size n a k) (hle : n ≤ m) : Within size m a k := by
  obtain ⟨met, hn, hmet⟩ := h
  exact ⟨met, Nat.le_trans hn hle, hmet⟩

theorem trans (h : Within size n a b) (h' : Within size m b k) : Within size (n + m) a k := by
  obtain ⟨met, hn, ha, hmet⟩ := h
  obtain ⟨met', hm, hb, hmet'⟩ := h'
  refine ⟨met ++ met', by grind, by grind, ?_⟩
  exact .append (hmet.mono (by grind)) (hmet'.mono (by grind))

theorem of_leave {task : Task} (h : ∀ cs, ∀ t ∈ task.next size cs, t.tasks = []) :
    Within size 1 (task :: k) k := by
  refine ⟨[task :: k], Nat.le_refl 1, List.mem_singleton.2 rfl, .cons (fun cs t ht => ?_) nofun⟩
  obtain ⟨u, hu, rfl⟩ := mem_next_cons_iff.1 ht
  exact List.mem_cons.2 (.inl (congrArg (· ++ k) (h cs u hu)))

theorem of_step (h : Within size n b k)
    (ha : ∀ cs, ∀ t ∈ next size ⟨cs, a⟩, t.tasks = k ∨ t.tasks = b) :
    Within size (n + 1) a k := by
  obtain ⟨met, hn, hb, hmet⟩ := h
  exact ⟨a :: met, by grind, by grind, .cons (by grind) (hmet.mono (by grind))⟩

theorem of_choice (h : Within size n b k) (h' : Within size m c k)
    (ha : ∀ cs, ∀ t ∈ next size ⟨cs, a⟩, t.tasks = b ∨ t.tasks = c) :
    Within size (n + m + 1) a k := by
  obtain ⟨met, hn, hb, hmet⟩ := h
  obtain ⟨met', hm, hc, hmet'⟩ := h'
  refine ⟨a :: (met ++ met'), by grind, by grind, .cons (by grind) ?_⟩
  exact .append (hmet.mono (by grind)) (hmet'.mono (by grind))

theorem of_loop (h : Within size n b a)
    (ha : ∀ cs, ∀ t ∈ next size ⟨cs, a⟩, t.tasks = k ∨ t.tasks = b) :
    Within size (n + 1) a k := by
  obtain ⟨met, hn, hb, hmet⟩ := h
  exact ⟨a :: met, by grind, by grind, .cons (by grind) (hmet.mono (by grind))⟩

end Within

theorem tasks_of_mem_next_repeated {cs : List Char} {t : Thread} {branch : List Bool} {p : Pattern}
    {least : Nat} {most : Option Nat} {greedy : Bool}
    (h : t ∈ next size ⟨cs, .read branch (.repeated p least most greedy) :: k⟩) :
    t.tasks = k ∨ t.tasks = .read branch p :: .afterRound branch p least most greedy :: k := by
  obtain ⟨u, hu, rfl⟩ := mem_next_cons_iff.1 h
  rcases Task.mem_next_repeated_iff.1 hu with ⟨-, rfl⟩ | ⟨-, rfl⟩
  · exact .inr rfl
  · exact .inl rfl

section Repetition

variable {p : Pattern} {branch : List Bool} {least : Nat} {most : Option Nat} {greedy : Bool}
  (hp : ∀ branch k, Within size p.taskBound (.read branch p :: k) k)
include hp

theorem within_again : Within size (p.taskBound + 1) (.again branch p greedy :: k) k := by
  refine .of_loop (hp branch _) fun cs t ht => ?_
  obtain ⟨u, hu, rfl⟩ := mem_next_cons_iff.1 ht
  rcases mem_prefer_iff.1 hu with rfl | rfl
  · exact .inr rfl
  · exact .inl rfl

theorem within_of_afterRound
    (h : Within size n (.afterRound branch p least most greedy :: k) k) :
    Within size (p.taskBound + n + 1) (.read branch (.repeated p least most greedy) :: k) k :=
  .of_step ((hp branch _).trans h) fun _ _ => tasks_of_mem_next_repeated

theorem within_star :
    Within size (2 * (p.taskBound + 1)) (.read branch (.repeated p 0 none greedy) :: k) k := by
  cases hempty : p.mayBeEmpty with
  | true =>
    have hafter : Task.afterRound branch p 0 none greedy = .again branch p greedy := by
      simp [Task.afterRound, hempty]
    exact (within_of_afterRound hp (hafter ▸ within_again hp)).mono (by omega)
  | false =>
    have hafter : Task.afterRound branch p 0 none greedy =
        .read branch (.repeated p 0 none greedy) := by
      simp [Task.afterRound, hempty]
    refine (Within.of_loop (hp branch _) fun cs t ht => ?_).mono (by omega)
    have h := tasks_of_mem_next_repeated ht
    rwa [hafter] at h

/-- Each round leaves bounds that are one less, until no round is left or the rounds come back. -/
theorem within_repeated (hn : max least (most.getD 0) ≤ n) :
    Within size ((n + 2) * (p.taskBound + 1))
      (.read branch (.repeated p least most greedy) :: k) k := by
  induction n generalizing least most with
  | zero =>
    obtain ⟨rfl, hmost⟩ : least = 0 ∧ most.getD 0 = 0 := by omega
    rcases most with _ | most
    · exact (within_star hp).mono (by omega)
    · obtain rfl : most = 0 := hmost
      refine .mono (.of_leave fun cs t ht => ?_) (by omega)
      rw [List.mem_singleton.1 ht]
  | succ n ih =>
    have hmul : (n + 1 + 2) * (p.taskBound + 1) =
        p.taskBound + (n + 2) * (p.taskBound + 1) + 1 := by
      rw [Nat.succ_mul]
      omega
    have htwo : 2 * (p.taskBound + 1) ≤ (n + 2) * (p.taskBound + 1) :=
      Nat.mul_le_mul_right _ (by omega)
    rw [hmul]
    refine within_of_afterRound hp ?_
    unfold Task.afterRound
    split
    · split
      · exact (within_again hp).mono (by omega)
      · exact (within_star hp).mono htwo
    · exact (within_again hp).mono (by omega)
    · have hpred : (most.map (· - 1)).getD 0 = most.getD 0 - 1 := by cases most <;> rfl
      exact ih (by omega)

end Repetition

theorem within_read {p : Pattern} (branch : List Bool) (k : List Task) :
    Within size p.taskBound (.read branch p :: k) k := by
  induction p generalizing branch k with
  | empty | start | finish => exact .of_leave fun cs t ht => by simp_all [Task.next]
  | chars set => exact .of_leave fun cs t ht => by cases cs <;> simp_all [Task.next]
  | seq p q ihp ihq =>
    refine .of_step ((ihp branch _).trans (ihq branch k)) fun cs t ht => .inr ?_
    obtain ⟨u, hu, rfl⟩ := mem_next_cons_iff.1 ht
    obtain rfl := List.mem_singleton.1 hu
    rfl
  | alt p q ihp ihq =>
    refine .of_choice (ihp (false :: branch) k) (ihq (true :: branch) k) fun cs t ht => ?_
    obtain ⟨u, hu, rfl⟩ := mem_next_cons_iff.1 ht
    obtain rfl | rfl : u = _ ∨ u = _ := by simpa [Task.next] using hu
    · exact .inl rfl
    · exact .inr rfl
  | repeated p least most greedy ih => exact within_repeated ih (Nat.le_refl _)

end Thread

theorem Task.suffix_of_mem_next {task : Task} {cs : List Char} {t : Thread}
    (h : t ∈ task.next size cs) : t.rest <:+ cs := by
  cases task with
  | again branch p greedy => rcases Thread.mem_prefer_iff.1 h with rfl | rfl <;> exact List.suffix_rfl
  | read branch p =>
    cases p with
    | chars set =>
      rcases cs with _ | ⟨c, cs⟩
      · cases h
      · by_cases hin : set.contains c = true
        · obtain rfl : t = ⟨cs, []⟩ := by simpa [next, hin] using h
          exact List.suffix_cons c cs
        · simp [next, hin] at h
    | repeated p least most greedy =>
      rcases mem_next_repeated_iff.1 h with ⟨-, rfl⟩ | ⟨-, rfl⟩ <;> exact List.suffix_rfl
    | _ =>
      have heq : t.rest = cs := by
        simp only [next] at h
        grind
      exact heq ▸ List.suffix_rfl

theorem Thread.suffix_of_mem_next {t u : Thread} (h : u ∈ t.next size) : u.rest <:+ t.rest := by
  obtain ⟨cs, _ | ⟨task, tasks⟩⟩ := t
  · cases h
  · obtain ⟨v, hv, rfl⟩ := mem_next_cons_iff.1 h
    exact (Task.suffix_of_mem_next hv :)

theorem Thread.length_next_le (t : Thread) : (t.next size).length ≤ 2 := by
  obtain ⟨cs, _ | ⟨task, tasks⟩⟩ := t
  · exact Nat.zero_le 2
  rw [next, List.length_map]
  cases task with
  | again branch p greedy => cases greedy <;> exact Nat.le_refl 2
  | read branch p =>
    cases p with
    | chars set => cases cs <;> grind [Task.next]
    | _ => grind [Task.next, prefer]

end Bound

section Exploration

open Thread

/-- The threads with tasks in `met` in front of some end of `cs`. -/
def Thread.spread (cs : List Char) (met : List (List Task)) : List Thread :=
  (cs.tails ×ˢ met).map fun (rest, tasks) => ⟨rest, tasks⟩

theorem Thread.mem_spread_iff {cs : List Char} {met : List (List Task)} {t : Thread} :
    t ∈ spread cs met ↔ t.rest <:+ cs ∧ t.tasks ∈ met := by
  obtain ⟨rest, tasks⟩ := t
  simp [spread, List.mem_product, List.mem_tails]

theorem Thread.length_spread (cs : List Char) (met : List (List Task)) :
    (spread cs met).length = (cs.length + 1) * met.length := by
  rw [spread, List.length_map, List.length_product, List.length_tails]

/-- What holds between two turns of the search, where no thread but those in `all` goes on. -/
structure Explored (size : Nat) (all seen stack : List Thread) : Prop where
  nodup : seen.Nodup
  seen_subset : seen ⊆ all
  stack_subset : ∀ t ∈ stack, t.tasks = [] ∨ t ∈ all
  not_ended : ∀ t ∈ seen, t.tasks ≠ []
  followed : ∀ t ∈ seen, ∀ u ∈ t.next size, u ∈ seen ∨ u ∈ stack

namespace Explored

variable {all seen stack : List Thread} {t : Thread}

theorem start (ht : t ∈ all) : Explored size all [] [t] :=
  ⟨List.nodup_nil, nofun, fun _ hu => .inr (List.mem_singleton.1 hu ▸ ht), nofun, nofun⟩

theorem drop (h : Explored size all seen (t :: stack)) (ht : t ∈ seen) :
    Explored size all seen stack where
  nodup := h.nodup
  seen_subset := h.seen_subset
  stack_subset u hu := h.stack_subset u (List.mem_cons_of_mem _ hu)
  not_ended := h.not_ended
  followed u hu v hv := by
    rcases h.followed u hu v hv with hv | hv
    · exact .inl hv
    · rcases List.mem_cons.1 hv with rfl | hv
      · exact .inl ht
      · exact .inr hv

theorem follow (h : Explored size all seen (t :: stack)) (ht : t ∉ seen) (hend : t.tasks ≠ [])
    (hall : ∀ u ∈ all, ∀ v ∈ u.next size, v.tasks = [] ∨ v ∈ all) :
    Explored size all (t :: seen) (t.next size ++ stack) where
  nodup := List.nodup_cons.2 ⟨ht, h.nodup⟩
  seen_subset := List.cons_subset.2
    ⟨(h.stack_subset t List.mem_cons_self).resolve_left hend, h.seen_subset⟩
  stack_subset u hu := by
    have htall := (h.stack_subset t List.mem_cons_self).resolve_left hend
    rcases List.mem_append.1 hu with hu | hu
    · exact hall t htall u hu
    · exact h.stack_subset u (List.mem_cons_of_mem _ hu)
  not_ended := List.forall_mem_cons.2 ⟨hend, h.not_ended⟩
  followed u hu v hv := by
    rcases List.mem_cons.1 hu with rfl | hu
    · exact .inr (List.mem_append_left _ hv)
    · have := h.followed u hu v hv
      grind

/-- With enough fuel, a search in vain has followed all threads that it came to. -/
theorem exists_closed (h : Explored size all seen stack) {fuel : Nat}
    (hall : ∀ u ∈ all, ∀ v ∈ u.next size, v.tasks = [] ∨ v ∈ all)
    (hfuel : 2 * (all.length - seen.length) + stack.length ≤ fuel)
    (hnone : explore size fuel seen stack = none) :
    ∃ closed : List Thread, stack ⊆ closed ∧ (∀ t ∈ closed, t.tasks ≠ []) ∧
      seen ⊆ closed ∧ ∀ t ∈ closed, ∀ u ∈ t.next size, u ∈ closed := by
  induction fuel generalizing seen stack with
  | zero =>
    obtain rfl : stack = [] := List.length_eq_zero_iff.1 (by omega)
    exact ⟨seen, nofun, h.not_ended, fun _ => id, fun t ht u hu =>
      (h.followed t ht u hu).resolve_right List.not_mem_nil⟩
  | succ fuel ih =>
    cases stack with
    | nil =>
      exact ⟨seen, nofun, h.not_ended, fun _ => id, fun t ht u hu =>
        (h.followed t ht u hu).resolve_right List.not_mem_nil⟩
    | cons t stack =>
      rw [explore] at hnone
      split at hnone
      next hseen =>
        obtain ⟨closed, hstack, hend, hsub, hclosed⟩ :=
          ih (h.drop hseen) (by rw [List.length_cons] at hfuel; omega) hnone
        exact ⟨closed, List.cons_subset.2 ⟨hsub hseen, hstack⟩, hend, hsub, hclosed⟩
      next hseen =>
        split at hnone
        · cases hnone
        next hend =>
          have hnext := h.follow hseen hend hall
          -- A thread that is followed is new, and there are no more than those in `all`.
          have hlength : (t :: seen).length ≤ all.length :=
            (List.subperm_of_subset hnext.nodup hnext.seen_subset).length_le
          have htwo : (t.next size).length ≤ 2 := length_next_le t
          obtain ⟨closed, hstack, hended, hsub, hclosed⟩ := ih hnext
            (by simp only [List.length_cons, List.length_append] at *; omega) hnone
          obtain ⟨ht, hseen⟩ := List.cons_subset.1 hsub
          exact ⟨closed, List.cons_subset.2 ⟨ht, (List.append_subset.1 hstack).2⟩, hended, hseen,
            hclosed⟩

end Explored

theorem exists_leads_of_explore {fuel : Nat} {seen stack : List Thread} {rest : List Char}
    (h : explore size fuel seen stack = some rest) : ∃ t ∈ stack, Leads size t ⟨rest, []⟩ := by
  induction fuel generalizing seen stack with
  | zero => cases h
  | succ fuel ih =>
    rcases stack with _ | ⟨t, stack⟩
    · cases h
    rw [explore] at h
    split at h
    · obtain ⟨u, hu, hlead⟩ := ih h
      exact ⟨u, List.mem_cons_of_mem _ hu, hlead⟩
    split at h
    next hend =>
      obtain ⟨rest, tasks⟩ := t
      obtain rfl : tasks = [] := hend
      cases h
      exact ⟨_, List.mem_cons_self, .refl⟩
    next =>
      obtain ⟨u, hu, hlead⟩ := ih h
      rcases List.mem_append.1 hu with hu | hu
      · exact ⟨t, List.mem_cons_self, .head hu hlead⟩
      · exact ⟨u, List.mem_cons_of_mem _ hu, hlead⟩

theorem Thread.Leads.mem_closed {closed : List Thread} {t u : Thread} (h : Leads size t u)
    (hclosed : ∀ t ∈ closed, ∀ u ∈ t.next size, u ∈ closed) (ht : t ∈ closed) : u ∈ closed := by
  induction h with
  | refl => exact ht
  | tail _ hstep ih => exact hclosed _ ih _ hstep

end Exploration

namespace Pattern

variable {p : Pattern} {cs fromStart rest : List Char}

theorem matches_of_leaves (h : p.leaves size cs = some rest) : p.Matches size cs rest := by
  obtain ⟨t, ht, hlead⟩ := exists_leads_of_explore h
  obtain rfl := List.mem_singleton.1 ht
  exact Task.allMatch_singleton_iff.1 (Thread.allMatch_of_leads hlead)

theorem leaves_ne_none (h : p.Matches size cs rest) : p.leaves size cs ≠ none := by
  intro hnone
  have hwithin : Thread.Within size p.taskBound [.read [] p] [] := Thread.within_read [] []
  obtain ⟨met, hlength, hmem, hmet⟩ := hwithin
  have hall : ∀ t ∈ Thread.spread cs met, ∀ u ∈ t.next size,
      u.tasks = [] ∨ u ∈ Thread.spread cs met := by
    intro t ht u hu
    obtain ⟨hrest, htasks⟩ := Thread.mem_spread_iff.1 ht
    refine (List.mem_cons.1 (hmet t.tasks htasks t.rest u hu)).imp_right fun hu' => ?_
    exact Thread.mem_spread_iff.2 ⟨(Thread.suffix_of_mem_next hu).trans hrest, hu'⟩
  have hfuel : (Thread.spread cs met).length ≤ (cs.length + 1) * p.taskBound := by
    rw [Thread.length_spread]
    exact Nat.mul_le_mul_left _ hlength
  have hstart : Explored size (Thread.spread cs met) [] [⟨cs, [.read [] p]⟩] :=
    .start (Thread.mem_spread_iff.2 ⟨List.suffix_rfl, hmem⟩)
  obtain ⟨closed, hstack, hended, -, hclosed⟩ := hstart.exists_closed hall
    (by simp only [List.length_nil, List.length_singleton]; omega) hnone
  -- The search in vain has followed the way to the match, and no thread that it followed had ended.
  have hlead : Thread.Leads size ⟨cs, [.read [] p]⟩ ⟨rest, []⟩ := Thread.leads_of_matches h []
  exact hended _ (hlead.mem_closed hclosed (hstack List.mem_cons_self)) rfl

theorem findFrom_of_leaves (h : p.leaves size cs = some rest) :
    findFrom size p cs = some (cs, rest) := by
  cases cs <;> simp [findFrom, h]

theorem findFrom_cons {c : Char} (h : p.leaves size (c :: cs) = none) :
    findFrom size p (c :: cs) = findFrom size p cs := by
  simp [findFrom, h]

/-- The search finds a match, and no match starts before it. -/
theorem findFrom_eq_some (h : findFrom size p cs = some (fromStart, rest)) :
    fromStart <:+ cs ∧ p.Matches size fromStart rest ∧
      ∀ t, t <:+ cs → fromStart.length < t.length → ∀ rest, ¬ p.Matches size t rest := by
  induction cs with
  | nil =>
    obtain ⟨_, hleaves, heq⟩ := Option.map_eq_some_iff.1 h
    cases heq
    refine ⟨List.suffix_rfl, matches_of_leaves hleaves, fun t ht hlt => ?_⟩
    exact absurd ht.length_le (Nat.not_le_of_lt hlt)
  | cons c cs ih =>
    cases hleaves : p.leaves size (c :: cs) with
    | some after =>
      rw [findFrom_of_leaves hleaves] at h
      cases h
      refine ⟨List.suffix_rfl, matches_of_leaves hleaves, fun t ht hlt => ?_⟩
      exact absurd ht.length_le (Nat.not_le_of_lt hlt)
    | none =>
      rw [findFrom_cons hleaves] at h
      obtain ⟨hsuffix, hmatch, hfirst⟩ := ih h
      refine ⟨hsuffix.trans (List.suffix_cons c cs), hmatch, fun t ht hlt => ?_⟩
      rcases List.suffix_cons_iff.1 ht with rfl | ht
      · exact fun rest h => leaves_ne_none h hleaves
      · exact hfirst t ht hlt

theorem findFrom_ne_none {t : List Char} (ht : t <:+ cs) (h : p.Matches size t rest) :
    findFrom size p cs ≠ none := by
  induction cs with
  | nil =>
    obtain rfl := List.suffix_nil.1 ht
    simpa [findFrom] using leaves_ne_none h
  | cons c cs ih =>
    cases hleaves : p.leaves size (c :: cs) with
    | some after => simp [findFrom_of_leaves hleaves]
    | none =>
      rw [findFrom_cons hleaves]
      rcases List.suffix_cons_iff.1 ht with rfl | ht
      · exact absurd hleaves (leaves_ne_none h)
      · exact ih ht

end Pattern

end LogConsumer
