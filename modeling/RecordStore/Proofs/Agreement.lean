import RecordStore.Proofs.Settled

namespace RecordStore

variable {σ α β : Type}

-- A fault may leave states related in another way than an answer does.
inductive Agrees (failed : σ → σ → Prop) (done : α → σ → σ → Prop) :
    EStateM.Result Fault σ α → EStateM.Result Fault σ α → Prop
  | ok {v a b} (held : done v a b) : Agrees failed done (.ok v a) (.ok v b)
  | error {fault a b} (held : failed a b) : Agrees failed done (.error fault a) (.error fault b)

section Agrees

variable {failed : σ → σ → Prop} {a b : σ}

theorem agrees_bind {mid : α → σ → σ → Prop} {done : β → σ → σ → Prop}
    {first other : EStateM Fault σ α} {next later : α → EStateM Fault σ β}
    (start : Agrees failed mid (first a) (other b))
    (rest : ∀ v a b, mid v a b → Agrees failed done (next v a) (later v b)) :
    Agrees failed done ((first >>= next) a) ((other >>= later) b) := by
  generalize one : first a = left at start
  generalize two : other b = right at start
  cases start with
  | ok held =>
    rw [bind_ok one, bind_ok two]
    exact rest _ _ _ held
  | error held =>
    rw [bind_error one, bind_error two]
    exact .error held

theorem agrees_imp {failing : σ → σ → Prop} {done after : α → σ → σ → Prop}
    {one other : EStateM.Result Fault σ α} (agrees : Agrees failed done one other)
    (faults : ∀ a b, failed a b → failing a b) (answers : ∀ v a b, done v a b → after v a b) :
    Agrees failing after one other := by
  cases agrees with
  | ok held => exact .ok (answers _ _ _ held)
  | error held => exact .error (faults _ _ held)

theorem agrees_attempt {done : β → σ → σ → Prop} {tried : Except Fault α}
    {next later : α → EStateM Fault σ β} (related : failed a b)
    (rest : ∀ v, tried = .ok v → Agrees failed done (next v a) (later v b)) :
    Agrees failed done ((attempt tried >>= next) a) ((attempt tried >>= later) b) := by
  cases ran : tried with
  | error fault => exact .error related
  | ok v => exact rest v ran

end Agrees

def Pairs (R : σ → σ → Prop) (action : EStateM Fault σ α) : Prop :=
  ∀ a b, R a b → Agrees R (fun _ => R) (action a) (action b)

section Pairs

variable {R : σ → σ → Prop}

theorem pairs_bind {action : EStateM Fault σ α} {next : α → EStateM Fault σ β}
    (first : Pairs R action) (later : ∀ v, Pairs R (next v)) : Pairs R (action >>= next) :=
  fun a b related => agrees_bind (first a b related) later

theorem pairs_pure (v : α) : Pairs R (pure v) := fun _ _ related => .ok related

end Pairs

namespace Session

structure Same (one other : Session σ) : Prop where
  cursor : other.cursor = one.cursor
  memory : other.memory = one.memory
  owner : other.owner = one.owner

theorem tried_same {work : Session σ → Except Fault α} {keep : Session σ → α → Session.Action σ β}
    (looks : ∀ a b, Same a b → work b = work a)
    (kept : ∀ a b v, Same a b → Agrees Same (fun _ => Same) (keep a v a) (keep b v b)) :
    Pairs Same (get >>= fun session => attempt (work session) >>= keep session) := by
  intro a b same
  rw [get_bind, get_bind, looks a b same]
  exact agrees_attempt same fun v _ => kept a b v same

theorem asked_same (question : Cursor → Memory → Except Fault α) :
    Pairs (Same (σ := σ)) (ask question) := by
  intro a b same
  rw [ask, get_bind, get_bind, same.cursor, same.memory]
  cases question a.cursor a.memory with
  | error fault => exact .error same
  | ok v => exact .ok same

theorem settle_same {write : Session σ → Except Fault (Written σ)}
    (looks : ∀ a b, Same a b → write b = write a) : Pairs Same (settle write) :=
  tried_same looks fun _ _ _ same => .ok ⟨same.cursor, rfl, rfl⟩

theorem bind_same (buffer : View) (offset : UInt64) :
    Pairs (Same (σ := σ)) (Session.bind buffer offset) := by
  apply tried_same
  · intro a b same
    rw [same.cursor]
  · intro a b cursor same
    exact .ok ⟨rfl, same.memory, same.owner⟩

theorem header_same : Pairs (Same (σ := σ)) putHeader := by
  apply tried_same
  · intro a b same
    rw [same.cursor, same.memory]
  · intro a b memory same
    exact .ok ⟨same.cursor, rfl, same.owner⟩

theorem write_same (owner : IndexOwner σ) (field : Nat) (value : Value) :
    Pairs Same (write owner field value) := by
  apply settle_same
  intro a b same
  rw [same.cursor, same.memory, same.owner]

theorem set_same (field : Nat) (n : Int64) : Pairs (Same (σ := σ)) (setSequence field n) := by
  apply tried_same
  · intro a b same
    rw [same.cursor, same.memory]
  · intro a b memory same
    exact .ok ⟨same.cursor, rfl, same.owner⟩

theorem lock_same : Pairs (Same (σ := σ)) lockKey := by
  intro a b same
  exact .ok ⟨congrArg Cursor.lockKey same.cursor, same.memory, same.owner⟩

theorem operation_same (owner : IndexOwner σ) (operation : CursorOperation) :
    Pairs Same (operation.run owner) := by
  have answer {α : Type} {action : Session.Action σ α} {word : α → CursorAnswer}
      (pairs : Pairs Same action) : Pairs Same (action >>= fun v => pure (word v)) :=
    pairs_bind pairs fun _ => pairs_pure _
  cases operation with
  | bind buffer offset => exact answer (bind_same buffer offset)
  | bindHeader buffer offset =>
    exact pairs_bind (bind_same buffer offset) fun _ => answer header_same
  | putHeader => exact answer header_same
  | headerMatches | header | read | readAll | readAs => exact answer (asked_same _)
  | write field value => exact answer (write_same owner field value)
  | writePadded field text =>
    refine answer (settle_same fun a b same => ?_)
    rw [same.cursor, same.memory, same.owner]
  | lockKey => exact answer lock_same
  | commit =>
    refine answer fun a b same => .ok ⟨?_, same.memory, same.owner⟩
    exact congrArg Cursor.commit same.cursor
  | setSequence field n => exact answer (set_same field n)
  | advance field =>
    refine answer (tried_same (fun a b same => ?_) fun a b counted same => ?_)
    · rw [same.cursor, same.memory]
    · exact .ok ⟨same.cursor, rfl, same.owner⟩
  | begin =>
    refine answer (tried_same (fun a b same => ?_) fun a b cursor same => ?_)
    · rw [same.cursor, same.memory]
    · exact .ok ⟨rfl, same.memory, same.owner⟩
  | rollback =>
    refine answer (tried_same (fun a b same => ?_) fun a b undone same => ?_)
    · rw [same.cursor, same.memory]
    · exact .ok ⟨rfl, rfl, same.owner⟩

structure Twin (layout : Layout) (home : View) (base : Memory) (one other : Session σ) : Prop where
  same : one.Same other
  settled : one.Settled layout home base

variable {layout : Layout} {home : View} {base : Memory}

theorem pairs_settled {action : Session.Action σ α} (pairs : Pairs Same action)
    (kept : ∀ session : Session σ, session.Settled layout home base →
      (stateOf (action session)).Settled layout home base) :
    Pairs (Twin layout home base) action := by
  intro a b twin
  have agrees := pairs a b twin.same
  have settled := kept a twin.settled
  generalize action a = left at agrees settled
  generalize action b = right at agrees
  cases agrees with
  | ok held => exact .ok ⟨held, settled⟩
  | error held => exact .error ⟨held, settled⟩

theorem operation_pairs (owner : IndexOwner σ) (operation : CursorOperation) :
    Pairs (Twin layout home base) (operation.run owner) :=
  pairs_settled (operation_same owner operation) fun _ => settled_run owner operation

theorem answered_pairs {action : Session.Action σ α} {word : α → β} (pairs : Pairs Same action)
    (kept : ∀ session : Session σ, session.Settled layout home base →
      (stateOf ((action >>= fun v => pure (word v)) session)).Settled layout home base) :
    Pairs (Twin layout home base) action := by
  refine pairs_settled pairs fun session settled => ?_
  have worded := kept session settled
  cases ran : action session with
  | ok v after =>
    rw [bind_ok ran] at worded
    exact worded
  | error fault after =>
    rw [bind_error ran] at worded
    exact worded

theorem header_pairs : Pairs (Twin (σ := σ) layout home base) putHeader := by
  refine pairs_settled header_same fun session settled => ?_
  rw [putHeader, get_bind]
  cases put : session.cursor.putHeader session.memory with
  | error fault => exact settled
  | ok memory => exact header_settled settled put

theorem write_pairs (owner : IndexOwner σ) (field : Nat) (value : Value) :
    Pairs (Twin layout home base) (write owner field value) :=
  answered_pairs (write_same owner field value) fun _ => settled_run owner (.write field value)

theorem set_pairs (field : Nat) (n : Int64) :
    Pairs (Twin (σ := List ValueIndex) layout home base) (setSequence field n) :=
  answered_pairs (set_same field n) fun _ => settled_run indexOwner (.setSequence field n)

theorem lock_pairs : Pairs (Twin (σ := σ) layout home base) lockKey :=
  pairs_settled lock_same fun _ settled =>
    ⟨settled.shape, settled.reports, settled.placed, settled.memory⟩

theorem asked_pairs (question : Cursor → Memory → Except Fault α) :
    Pairs (Twin (σ := σ) layout home base) (ask question) := by
  refine pairs_settled (asked_same question) fun session settled => ?_
  rw [ask, get_bind]
  cases question session.cursor session.memory with
  | error fault => exact settled
  | ok v => exact settled

end Session

end RecordStore
