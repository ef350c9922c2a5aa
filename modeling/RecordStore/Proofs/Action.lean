import RecordStore.Table.Operation

namespace RecordStore

variable {σ α β : Type}

theorem except_bind_ok {first : Except Fault α} {next : α → Except Fault β} {b : β} :
    (first >>= next) = .ok b ↔ ∃ a, first = .ok a ∧ next a = .ok b := by
  constructor
  · intro ran
    cases first with
    | ok a => exact ⟨a, rfl, ran⟩
    | error fault => cases ran
  · intro shown
    obtain ⟨a, rfl, ran⟩ := shown
    exact ran

theorem except_bind_error {first : Except Fault α} {next : α → Except Fault β} {fault : Fault} :
    (first >>= next) = .error fault ↔
      first = .error fault ∨ ∃ a, first = .ok a ∧ next a = .error fault := by
  cases first with
  | ok a =>
    constructor
    · intro failed
      exact .inr ⟨a, rfl, failed⟩
    · intro shown
      obtain ⟨_, ⟨⟩, failed⟩ := shown.resolve_left nofun
      exact failed
  | error first =>
    constructor
    · intro failed
      cases failed
      exact .inl rfl
    · intro shown
      cases shown.resolve_right nofun
      rfl

theorem except_bind_runs {first : Except Fault α} {next : α → Except Fault β} {a : α}
    (ran : first = .ok a) (later : ∃ b, next a = .ok b) : ∃ b, (first >>= next) = .ok b := by
  subst ran
  exact later

theorem throw_error {fault : Fault} : (throw fault : Except Fault α) = .error fault := rfl

theorem ok_then (a : α) (next : α → Except Fault β) : (Except.ok a >>= next) = next a := rfl

theorem error_then {fault : Fault} (next : α → Except Fault β) :
    (Except.error fault >>= next) = .error fault := rfl

def FailsOnly (allowed : Fault → Prop) (result : Except Fault α) : Prop :=
  ∀ fault, result = .error fault → allowed fault

section FailsOnly

variable {allowed : Fault → Prop}

theorem fails_ok (a : α) : FailsOnly allowed (.ok a) := nofun

theorem fails_error {fault : Fault} (fine : allowed fault) :
    FailsOnly allowed (.error fault : Except Fault α) := by
  rintro _ ⟨⟩
  exact fine

theorem fails_bind {first : Except Fault α} {next : α → Except Fault β}
    (one : FailsOnly allowed first) (later : ∀ a, first = .ok a → FailsOnly allowed (next a)) :
    FailsOnly allowed (first >>= next) := by
  intro fault failed
  rcases except_bind_error.mp failed with early | ⟨a, ran, late⟩
  · exact one fault early
  · exact later a ran fault late

theorem fails_map {read : α → Except Fault β} {items : List α}
    (each : ∀ item ∈ items, FailsOnly allowed (read item)) :
    FailsOnly allowed (items.mapM read) := by
  induction items with
  | nil => exact fails_ok _
  | cons item rest ih =>
    rw [List.mapM_cons]
    refine fails_bind (each item List.mem_cons_self) fun _ _ => ?_
    exact fails_bind (ih fun item among => each item (List.mem_cons_of_mem _ among))
      fun _ _ => fails_ok _

end FailsOnly

theorem bind_ok {action : EStateM Fault σ α} {next : α → EStateM Fault σ β} {state after : σ} {a : α}
    (first : action state = .ok a after) : (action >>= next) state = next a after := by
  change EStateM.bind action next state = _
  rw [EStateM.bind, first]

theorem bind_error {action : EStateM Fault σ α} {next : α → EStateM Fault σ β} {state after : σ}
    {fault : Fault} (first : action state = .error fault after) :
    (action >>= next) state = .error fault after := by
  change EStateM.bind action next state = _
  rw [EStateM.bind, first]

@[simp] theorem get_bind (next : σ → EStateM Fault σ β) (state : σ) :
    ((get : EStateM Fault σ σ) >>= next) state = next state state := rfl

@[simp] theorem set_bind (fresh : σ) (next : PUnit → EStateM Fault σ β) (state : σ) :
    ((set fresh : EStateM Fault σ PUnit) >>= next) state = next ⟨⟩ fresh := rfl

theorem attempt_ok {result : Except Fault α} {a : α} (found : result = .ok a)
    (next : α → EStateM Fault σ β) (state : σ) : (attempt result >>= next) state = next a state := by
  subst found
  rfl

theorem attempt_error {result : Except Fault α} {fault : Fault} (failed : result = .error fault)
    (next : α → EStateM Fault σ β) (state : σ) :
    (attempt result >>= next) state = .error fault state := by
  subst failed
  rfl

def stateOf : EStateM.Result Fault σ α → σ
  | .ok _ state => state
  | .error _ state => state

theorem step_eq (table : Table) (operation : TableOperation) :
    table.step operation = stateOf (operation.run table) := by
  rw [Table.step]
  cases operation.run table <;> rfl

def Table.answer (table : Table) (operation : TableOperation) : Except Fault TableAnswer :=
  match operation.run table with
  | .ok answer _ => .ok answer
  | .error fault _ => .error fault

def outcome : Except Fault α → σ → EStateM.Result Fault σ α
  | .ok a, state => .ok a state
  | .error fault, state => .error fault state

theorem state_of_outcome (answer : Except Fault α) (state : σ) :
    stateOf (outcome answer state) = state := by
  cases answer <;> rfl

theorem attempt_outcome (result : Except Fault α) (state : σ) :
    (attempt result : EStateM Fault σ α) state = outcome result state := by
  cases result <;> rfl

theorem bind_outcome {action : EStateM Fault σ α} {state after : σ} {answer : Except Fault α}
    (ran : action state = outcome answer after) (word : α → β) :
    (action >>= fun a => pure (word a)) state = outcome (answer.map word) after := by
  cases answer with
  | ok a => exact bind_ok ran
  | error fault => exact bind_error ran

theorem answer_step {table after : Table} {operation : TableOperation}
    {answer : Except Fault TableAnswer} (ran : operation.run table = outcome answer after) :
    table.answer operation = answer ∧ table.step operation = after := by
  rw [Table.answer, Table.step, ran]
  cases answer <;> exact ⟨rfl, rfl⟩

theorem after_append (table : Table) (earlier later : List TableOperation) :
    table.after (earlier ++ later) = (table.after earlier).after later := List.foldl_append

theorem after_snoc (table : Table) (earlier : List TableOperation) (operation : TableOperation) :
    table.after (earlier ++ [operation]) = (table.after earlier).step operation := by
  rw [after_append]
  rfl

def Keeps (R : σ → σ → Prop) (action : EStateM Fault σ α) : Prop :=
  ∀ state, R state (stateOf (action state))

section Keeps

variable {R : σ → σ → Prop}

theorem keeps_bind [Trans R R R] {action : EStateM Fault σ α} {next : α → EStateM Fault σ β}
    (first : Keeps R action) (later : ∀ a, Keeps R (next a)) : Keeps R (action >>= next) := by
  intro state
  have step := first state
  cases ran : action state with
  | ok a after =>
    rw [ran] at step
    rw [bind_ok ran]
    exact Trans.trans step (later a after)
  | error fault after =>
    rw [ran] at step
    rw [bind_error ran]
    exact step

theorem keeps_pure [Std.Refl R] (a : α) : Keeps R (pure a) := fun state => Std.Refl.refl state

theorem keeps_get [Std.Refl R] : Keeps R (get : EStateM Fault σ σ) :=
  fun state => Std.Refl.refl state

theorem keeps_throw [Std.Refl R] (fault : Fault) : Keeps R (throw fault : EStateM Fault σ α) :=
  fun state => Std.Refl.refl state

theorem keeps_attempt [Std.Refl R] (result : Except Fault α) : Keeps R (attempt result) := by
  intro state
  cases result <;> exact Std.Refl.refl state

theorem keeps_of_answer {action : EStateM Fault σ α} {word : α → β}
    (worded : Keeps R (action >>= fun a => pure (word a))) : Keeps R action := by
  intro state
  have step := worded state
  cases ran : action state with
  | ok a after =>
    rw [bind_ok ran] at step
    exact step
  | error fault after =>
    rw [bind_error ran] at step
    exact step

end Keeps

end RecordStore
