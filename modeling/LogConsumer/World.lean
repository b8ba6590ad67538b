import LogConsumer.Consumer

/-! Consumers over one cluster and one clock. What happens in the world is a sequence of parts of
operations, commits that run, and the passing of time. -/
namespace LogConsumer

/-- Consumers are told apart by the order in which they were made. -/
abbrev ConsumerId := Nat

structure World (ℓ κ : Type) where
  clock : Time
  cluster : Cluster
  consumers : List (Consumer ℓ κ)
  counters : Counters

namespace World

variable {ℓ κ : Type}

def initial : World ℓ κ := ⟨0, .empty, [], .zero⟩

instance : Inhabited (World ℓ κ) := ⟨initial⟩

def consumer? (w : World ℓ κ) (id : ConsumerId) : Option (Consumer ℓ κ) := w.consumers[id]?

def setConsumer (w : World ℓ κ) (id : ConsumerId) (c : Consumer ℓ κ) : World ℓ κ :=
  { w with consumers := w.consumers.set id c }

def create (b : Behaviour) (w : World ℓ κ) : ConsumerId × World ℓ κ :=
  (w.consumers.length, { w with consumers := w.consumers ++ [.ofBehaviour b] })

/-- Lets a consumer take its turn; where there is none, the answer is that it is closed. -/
def takeTurn (f : Consumer ℓ κ → Turn ℓ κ) (id : ConsumerId) (w : World ℓ κ) :
    Progress ℓ × World ℓ κ :=
  match w.consumer? id with
  | some c =>
    let turn := f c
    (turn.progress,
      { w.setConsumer id turn.consumer with counters := w.counters.countAll turn.counts })
  | none => (.answered (.error .closed), w)

def request (id : ConsumerId) (r : Request ℓ κ) (w : World ℓ κ) : Progress ℓ × World ℓ κ :=
  w.takeTurn (·.request w.cluster w.clock r) id

def proceed (id : ConsumerId) (w : World ℓ κ) : Progress ℓ × World ℓ κ :=
  w.takeTurn (·.proceed w.cluster w.clock) id

def modifyConsumer (id : ConsumerId) (f : Consumer ℓ κ → Consumer ℓ κ) (w : World ℓ κ) :
    World ℓ κ :=
  { w with consumers := w.consumers.modify id f }

def abandon (id : ConsumerId) (w : World ℓ κ) : World ℓ κ := w.modifyConsumer id .abandon

/-- Makes the next `count` polls or commits of a consumer fail. -/
def addFault (kind : FaultKind) (fault : Fault) (count : Nat) (id : ConsumerId) (w : World ℓ κ) :
    World ℓ κ :=
  w.modifyConsumer id fun c =>
    match kind with
    | .poll => { c with pollFaults := c.pollFaults.push fault count }
    | .commit => { c with commits := { c.commits with faults := c.commits.faults.push fault count } }

/-- Runs the next commit of a consumer up to its callback, whose arguments are given. -/
def startCommit (id : ConsumerId) (w : World ℓ κ) :
    Option (Commit κ × Except Failure Unit) × World ℓ κ :=
  match w.consumer? id with
  | some c =>
    match c.commits.start? w.cluster with
    | some e =>
      (some (e.commit, e.result),
        { w.setConsumer id { c with commits := e.commits } with
          cluster := e.cluster
          counters := w.counters.countAll e.counts })
    | none => (none, w)
  | none => (none, w)

def finishCommit (id : ConsumerId) (w : World ℓ κ) : World ℓ κ :=
  w.modifyConsumer id fun c => { c with commits := c.commits.finish w.clock }

def inFlight (id : ConsumerId) (w : World ℓ κ) : Nat :=
  ((w.consumer? id).map (·.commits.inFlight)).getD 0

/-- The consumer whose next commit is due first, if it is due by `time`. -/
def nextDue? (time : Time) (w : World ℓ κ) : Option (ConsumerId × Time) :=
  let dues := w.consumers.zipIdx.filterMap fun (c, id) => c.commits.nextDue?.map (id, ·)
  (dues.filter (·.2 ≤ time)).foldl
    (fun first due => match first with
      | some f => if due.2 < f.2 then some due else some f
      | none => some due) none

def advance (time : Time) (w : World ℓ κ) : World ℓ κ := { w with clock := max w.clock time }

end World

end LogConsumer
