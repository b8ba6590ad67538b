import LogConsumer.Fault

/-! Counters of what consumers did. A counter that was never counted is not reported. -/
namespace LogConsumer

inductive Counter
  | polls (group : String)
  | recordsPolled (group : String)
  | commits (group : String) (succeeded : Bool)
  | faults (kind : FaultKind)
  | rebalances (group reason : String)
deriving DecidableEq

namespace Counter

def name : Counter → String
  | polls _ => "streamline_mock_polls_total"
  | recordsPolled _ => "streamline_mock_records_polled_total"
  | commits .. => "streamline_mock_commits_total"
  | faults _ => "streamline_mock_faults_total"
  | rebalances .. => "streamline_mock_rebalances_total"

def labels : Counter → List (String × String)
  | polls group | recordsPolled group => [("group", group)]
  | commits group succeeded =>
    [("group", group), ("outcome", if succeeded then "success" else "failure")]
  | faults .poll => [("kind", "poll")]
  | faults .commit => [("kind", "commit")]
  | rebalances group reason => [("group", group), ("reason", reason)]

def sortKey (c : Counter) : List String := c.name :: c.labels.flatMap fun l => [l.1, l.2]

end Counter

structure Counters where
  totals : List (Counter × Nat)
deriving DecidableEq

namespace Counters

def zero : Counters := ⟨[]⟩

instance : Inhabited Counters := ⟨zero⟩

def get? (c : Counters) (k : Counter) : Option Nat := c.totals.lookup k

/-- Adds `n` to a counter, which is reported from then on even if `n` is 0. -/
def count (k : Counter) (n : Nat) (c : Counters) : Counters :=
  ⟨(k, (c.get? k).getD 0 + n) :: c.totals.filter (·.1 != k)⟩

theorem get?_count (c : Counters) (k k' : Counter) (n : Nat) :
    (c.count k n).get? k' = if k' = k then some ((c.get? k).getD 0 + n) else c.get? k' := by
  by_cases h : k' = k
  · simp [count, get?, h]
  · have hk : (k' == k) = false := by simpa using h
    simp only [count, get?, List.lookup_cons, hk, if_neg h]
    induction c.totals with
    | nil => rfl
    | cons a l ih =>
      obtain ⟨a, m⟩ := a
      by_cases ha : a = k
      · simp [ha, List.lookup_cons, hk, ih]
      · rw [List.filter_cons_of_pos (by simpa using ha), List.lookup_cons, List.lookup_cons, ih]

def countAll (ks : List (Counter × Nat)) (c : Counters) : Counters :=
  ks.foldl (fun c k => c.count k.1 k.2) c

@[simp] theorem countAll_nil (c : Counters) : c.countAll [] = c := rfl

@[simp] theorem countAll_cons (k : Counter) (n : Nat) (ks : List (Counter × Nat)) (c : Counters) :
    c.countAll ((k, n) :: ks) = (c.count k n).countAll ks := rfl

theorem countAll_append (ks ks' : List (Counter × Nat)) (c : Counters) :
    c.countAll (ks ++ ks') = (c.countAll ks).countAll ks' := List.foldl_append

theorem get?_countAll_congr {c c' : Counters} (h : ∀ k, c.get? k = c'.get? k)
    (ks : List (Counter × Nat)) (k : Counter) :
    (c.countAll ks).get? k = (c'.countAll ks).get? k := by
  induction ks generalizing c c' with
  | nil => exact h k
  | cons a ks ih => exact ih fun k' => by rw [get?_count, get?_count, h, h]

theorem get?_countAll_count (a : Counter) (n : Nat) (ks : List (Counter × Nat)) (c : Counters)
    (k : Counter) : ((c.count a n).countAll ks).get? k = ((c.countAll ks).count a n).get? k := by
  induction ks generalizing c with
  | nil => rfl
  | cons b ks ih =>
    obtain ⟨b, m⟩ := b
    rw [countAll_cons, countAll_cons, ← ih]
    refine get?_countAll_congr (fun k' => ?_) ks k
    simp only [get?_count]
    split <;> split <;> simp_all [Nat.add_right_comm]

theorem get?_countAll_comm (ks ks' : List (Counter × Nat)) (c : Counters) (k : Counter) :
    ((c.countAll ks).countAll ks').get? k = ((c.countAll ks').countAll ks).get? k := by
  induction ks generalizing c with
  | nil => rfl
  | cons a ks ih =>
    obtain ⟨a, n⟩ := a
    rw [countAll_cons, countAll_cons, ih]
    exact get?_countAll_congr (get?_countAll_count a n ks' c) ks k

def total (c : Counters) (k : Counter) : Nat := (c.get? k).getD 0

def amount (k : Counter) : List (Counter × Nat) → Nat
  | [] => 0
  | a :: ks => (if a.1 = k then a.2 else 0) + amount k ks

@[simp] theorem amount_nil (k : Counter) : amount k [] = 0 := rfl

@[simp] theorem amount_cons (k : Counter) (a : Counter × Nat) (ks : List (Counter × Nat)) :
    amount k (a :: ks) = (if a.1 = k then a.2 else 0) + amount k ks := rfl

@[simp] theorem amount_append (k : Counter) (ks ks' : List (Counter × Nat)) :
    amount k (ks ++ ks') = amount k ks + amount k ks' := by
  induction ks with
  | nil => simp
  | cons a ks ih => simp [ih, Nat.add_assoc]

theorem total_count (c : Counters) (k k' : Counter) (n : Nat) :
    (c.count k n).total k' = c.total k' + if k = k' then n else 0 := by
  rw [total, get?_count]
  by_cases h : k' = k
  · subst h
    simp [total]
  · simp [total, h, Ne.symm h]

theorem total_countAll (c : Counters) (ks : List (Counter × Nat)) (k : Counter) :
    (c.countAll ks).total k = c.total k + amount k ks := by
  induction ks generalizing c with
  | nil => rfl
  | cons a ks ih =>
    obtain ⟨a, n⟩ := a
    rw [countAll_cons, ih, total_count, amount_cons, Nat.add_assoc]

def report (c : Counters) : List (Counter × Nat) :=
  c.totals.mergeSort fun a b => (compare a.1.sortKey b.1.sortKey).isLE

end Counters

end LogConsumer
