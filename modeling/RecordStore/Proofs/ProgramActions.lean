import RecordStore.Proofs.Completeness
import RecordStore.Proofs.Query
import RecordStore.Workload

namespace RecordStore

/-! ### Programs -/

section Runs

variable {σ α β : Type} {pre mid : σ → Prop}

-- From every state of one kind the action runs to its end, and leaves a state of another kind.
def Runs (pre : σ → Prop) (action : EStateM Fault σ α) (post : α → σ → Prop) : Prop :=
  ∀ state, pre state → ∃ a after, action state = .ok a after ∧ post a after

theorem runs_bind {action : EStateM Fault σ α} {next : α → EStateM Fault σ β} {mid : α → σ → Prop}
    {post : β → σ → Prop} (first : Runs pre action mid) (later : ∀ a, Runs (mid a) (next a) post) :
    Runs pre (action >>= next) post := by
  intro state fine
  obtain ⟨a, between, ran, half⟩ := first state fine
  obtain ⟨b, after, rest, done⟩ := later a between half
  exact ⟨b, after, (bind_ok ran).trans rest, done⟩

theorem runs_imp {action : EStateM Fault σ α} {post other : α → σ → Prop}
    (first : Runs pre action post) (weaker : ∀ a after, post a after → other a after) :
    Runs pre action other := by
  intro state fine
  obtain ⟨a, after, ran, done⟩ := first state fine
  exact ⟨a, after, ran, weaker a after done⟩

-- By induction on the number of turns: turn `i` leads from stage `i` to the next one.
theorem runs_each (stage : Nat → σ → Prop) {work : UInt64 → EStateM Fault σ Unit} (count : Nat)
    (turn : ∀ i < count, Runs (stage i) (work (UInt64.ofNat i)) fun _ => stage (i + 1)) :
    Runs (stage 0) (Workload.each count work) fun _ => stage count := by
  induction count with
  | zero => exact fun state fine => ⟨⟨⟩, state, rfl, fine⟩
  | succ count ih =>
    have split : Workload.each (count + 1) work =
        Workload.each count work >>= fun _ => work (UInt64.ofNat count) := by
      rw [Workload.each, Workload.each, List.range_succ, List.forM_eq_forM, List.forM_append]
      simp
    rw [split]
    exact runs_bind (ih fun i few => turn i (Nat.lt_succ_of_lt few))
      fun _ => turn count (Nat.lt_succ_self count)

end Runs

section Peel

variable {σ α β : Type} {state after : σ}

theorem bind_ok_iff {action : EStateM Fault σ α} {next : α → EStateM Fault σ β} {b : β} :
    (action >>= next) state = .ok b after ↔
      ∃ a mid, action state = .ok a mid ∧ next a mid = .ok b after := by
  constructor
  · intro ran
    cases first : action state with
    | ok a mid =>
      rw [bind_ok first] at ran
      exact ⟨a, mid, rfl, ran⟩
    | error fault mid =>
      rw [bind_error first] at ran
      cases ran
  · rintro ⟨a, mid, first, ran⟩
    rw [bind_ok first, ran]

theorem keeps_ok {R : σ → σ → Prop} {action : EStateM Fault σ α} {a : α} (keeps : Keeps R action)
    (ran : action state = .ok a after) : R state after := by
  have kept := keeps state
  rw [ran] at kept
  exact kept

end Peel

/-! ### Refusals are reported -/

def Notice.rejects : Notice → Bool
  | appendFull _ | appendDuplicate _ | appendClaimed _ | copyFull _ | copyDuplicate _ => true
  | uniqueViolation .. | indexMoved .. | created .. | rolledBack .. => false

namespace Notice

def Quiet (before after : List Notice) : Prop :=
  ∀ notice ∈ after, notice.rejects = true → notice ∈ before

theorem quiet_refl (notices : List Notice) : Quiet notices notices := fun _ member _ => member

theorem quiet_trans {a b c : List Notice} (first : Quiet a b) (later : Quiet b c) : Quiet a c :=
  fun notice member rejects => first notice (later notice member rejects) rejects

theorem quiet_more {notices more : List Notice} (fine : ∀ notice ∈ more, notice.rejects = false) :
    Quiet notices (notices ++ more) := by
  intro notice member rejects
  rcases List.mem_append.mp member with old | new
  · exact old
  · exact absurd ((fine notice new).symm.trans rejects) Bool.false_ne_true

end Notice

namespace Session

variable {σ : Type}

def Quiet (before after : Session σ) : Prop := Notice.Quiet before.notices after.notices

instance : Trans (Quiet (σ := σ)) Quiet Quiet := ⟨Notice.quiet_trans⟩

theorem index_remarks_quiet (indexes : List ValueIndex) (field : Nat) (offset : UInt64)
    (value : Value) : ∀ notice ∈ indexOwner.remarks indexes field offset value,
      notice.rejects = false := by
  intro notice member
  rw [indexOwner] at member
  dsimp only at member
  split at member
  · rw [ValueIndex.remarks] at member
    split at member
    · rw [List.mem_singleton.mp member]
      rfl
    · cases member
  · cases member

theorem written_quiet {cursor : Cursor} {memory : Memory} {indexes : List ValueIndex} {field : Nat}
    {value : Value} {written : Written (List ValueIndex)}
    (ran : cursor.write indexOwner memory indexes field value = .ok written) :
    ∀ notice ∈ written.notices, notice.rejects = false := by
  rw [Cursor.write] at ran
  obtain ⟨⟨place, slot⟩, -, ran⟩ := except_bind_ok.mp ran
  dsimp only at ran
  cases reported : (slot.attrs.indexed && cursor.reports) with
  | false =>
    rw [reported] at ran
    obtain ⟨after, -, made⟩ := except_bind_ok.mp ran
    cases made
    exact List.forall_mem_nil _
  | true =>
    rw [reported, if_pos rfl] at ran
    generalize (if slot.attrs.unique then indexOwner.isFree memory indexes field value.stored
      else (true, indexes)) = consulted at ran
    cases free : consulted.1 with
    | false =>
      rw [free] at ran
      cases ran
      intro notice member
      rw [List.mem_singleton.mp member]
      rfl
    | true =>
      rw [free] at ran
      obtain ⟨after, -, made⟩ := except_bind_ok.mp ran
      cases made
      exact index_remarks_quiet _ field _ _

theorem quiet_write (field : Nat) (value : Value) :
    Keeps Quiet (Session.write indexOwner field value) := by
  intro session
  rw [Session.write, Session.settle, get_bind]
  cases ran : session.cursor.write indexOwner session.memory session.owner field value with
  | error fault => exact Notice.quiet_refl _
  | ok written => exact Notice.quiet_more (written_quiet ran)

theorem quiet_tried {α : Type} {work : Session σ → Except Fault α}
    {keep : Session σ → α → Session.Action σ Unit}
    (silent : ∀ session a, (stateOf (keep session a session)).notices = session.notices) :
    Keeps Quiet (get >>= fun session => attempt (work session) >>= keep session) := by
  intro session
  rw [get_bind]
  cases tried : work session with
  | error fault => exact Notice.quiet_refl _
  | ok a =>
    change Notice.Quiet session.notices (stateOf (keep session a session)).notices
    rw [silent]
    exact Notice.quiet_refl _

theorem quiet_bind (buffer : View) (offset : UInt64) :
    Keeps (Quiet (σ := σ)) (Session.bind buffer offset) := quiet_tried fun _ _ => rfl

theorem quiet_put_header : Keeps (Quiet (σ := σ)) putHeader := quiet_tried fun _ _ => rfl

theorem quiet_set (field : Nat) (n : Int64) : Keeps (Quiet (σ := σ)) (setSequence field n) :=
  quiet_tried fun _ _ => rfl

theorem quiet_lock : Keeps (Quiet (σ := σ)) lockKey :=
  fun session => Notice.quiet_refl session.notices

end Session

namespace Table

def Quiet (before after : Table) : Prop := Notice.Quiet before.notices after.notices

instance : Std.Refl Quiet := ⟨fun table => Notice.quiet_refl table.notices⟩

instance : Trans Quiet Quiet Quiet := ⟨Notice.quiet_trans⟩

theorem create_quiet {memory : Memory} {layout : Layout} {capacity : UInt64}
    {options : TableOptions} {table : Table}
    (created : create memory (some layout) capacity options = .ok table) :
    ∀ notice ∈ table.notices, notice.rejects = false := by
  obtain ⟨_, same, made⟩ := create_ok created
  cases same
  intro notice member
  rw [made.notices] at member
  rw [List.mem_singleton.mp member]
  rfl

theorem quiet_with_cursor {α : Type} {work : Session.Action (List ValueIndex) α} {role : Role}
    (quiet : RecordStore.Keeps Session.Quiet work) :
    RecordStore.Keeps Quiet (withCursor role work) := by
  intro table
  have kept := quiet (table.session (table.cursor role))
  rw [withCursor]
  cases ran : work (table.session (table.cursor role)) with
  | ok _ after | error _ after =>
    rw [ran] at kept
    exact kept

theorem quiet_write_key (key : Int64) (value : Value) :
    RecordStore.Keeps Quiet (writeKey key value) := by
  refine keeps_bind keeps_get fun table => ?_
  refine keeps_bind (keeps_attempt _) fun slot => ?_
  split
  · exact keeps_bind (quiet_with_cursor (Session.quiet_set _ key)) fun _ => keeps_pure _
  · exact quiet_with_cursor (Session.quiet_write _ value)

theorem append_quiet {table after : Table} {key : Int64}
    (ran : append key table = .ok true after) : table.Quiet after := by
  rw [append, get_bind] at ran
  split at ran
  · cases ran
  split at ran
  · cases ran
  obtain ⟨value, same, tried, ran⟩ := bind_ok_iff.mp ran
  obtain ⟨_, headed, heading, ran⟩ := bind_ok_iff.mp ran
  obtain ⟨taken, keyed, keying, ran⟩ := bind_ok_iff.mp ran
  have start : table.Quiet same := keeps_ok (keeps_attempt _) tried
  have first : same.Quiet headed := keeps_ok (quiet_with_cursor
    (keeps_bind (Session.quiet_bind _ _) fun _ => Session.quiet_put_header)) heading
  have second : headed.Quiet keyed := keeps_ok (quiet_write_key key value) keying
  cases taken with
  | true =>
    obtain ⟨_, locked, locking, ran⟩ := bind_ok_iff.mp ran
    cases ran
    have third : keyed.Quiet locked := keeps_ok (quiet_with_cursor Session.quiet_lock) locking
    have before : table.Quiet keyed := Trans.trans (Trans.trans start first) second
    exact (Trans.trans before third : table.Quiet locked)
  | false =>
    obtain ⟨_, noted, _, ran⟩ := bind_ok_iff.mp ran
    obtain ⟨_, cleared, _, ran⟩ := bind_ok_iff.mp ran
    cases ran

/-! ### The account of a program -/

theorem answered_run {α : Type} {act : Action α} {word : α → TableAnswer} {table : Table}
    {operation : TableOperation} {reply : TableAnswer}
    (same : operation.run = act >>= fun a => pure (word a))
    (answered : table.answer operation = .ok reply) :
    ∃ a, act table = .ok a (table.step operation) ∧ word a = reply := by
  rw [answer, same] at answered
  rw [step, same]
  cases ran : act table with
  | error fault after =>
    rw [bind_error ran] at answered
    cases answered
  | ok a after =>
    rw [bind_ok ran] at answered ⊢
    exact ⟨a, rfl, Except.ok.inj answered⟩

structure Kept (table : Table) (ledger : Ledger) : Prop where
  upheld : table.Upheld ledger
  named : Tracks table.Named table ledger
  reflects : Tracks table.Reflects table ledger

structure Bears (table : Table) (ledger : Ledger) (i field : Nat) (value : Value) : Prop where
  few : i < ledger.now.keys.length
  given : ∀ offset : UInt64, offset.toNat = i * table.slotStride.toNat →
    (offset, field) ∈ ledger.now.given
  held : ∀ offset : UInt64, offset.toNat = i * table.slotStride.toNat →
    table.HeldAt table.bytes offset field value

section Kept

variable {table start : Table} {ledger : Ledger} {operation : TableOperation}

theorem create_kept {layout : Layout} {memory : Memory} {capacity : UInt64} {options : TableOptions}
    (created : create memory (some layout) capacity options = .ok start) (packed : layout.Packed)
    (wide : layout.stride.toNat + options.slotPadding.toNat < UInt64.size) : start.Kept {} where
  upheld := create_upheld created packed wide
  named := create_named created
  reflects := create_reflects created

theorem step_kept (kept : table.Kept ledger) (allowed : ledger.Allows table operation)
    (once : operation ≠ .onFinder .rollback ∧ operation ≠ .onWalker .rollback) :
    (table.step operation).Kept (ledger.note table operation (table.answer operation)) := by
  obtain ⟨upheld, named, reflects⟩ := kept
  have step := step_cases upheld.formed operation
  have framed := step_framed step
  have effect := step_effect upheld allowed step
  refine ⟨step_upheld table operation upheld allowed, ?_, ?_⟩
  · exact tracks_imp (named_framed framed) (step_tracks upheld.formed step named
      (effect_named upheld.formed named.now effect))
  · exact tracks_imp (fun _ _ _ => reflects_framed framed) (step_tracks upheld.formed step reflects
      fun forward => effect_reflects upheld reflects.now effect forward once)

theorem bears_kept {after : Table} {later : Ledger} {i field : Nat} {value : Value}
    (framed : table.Framed after) (grown : ledger.now.keys.length ≤ later.now.keys.length)
    (given : ∀ pair ∈ ledger.now.given, pair ∈ later.now.given)
    (same : ∀ offset : UInt64, offset.toNat = i * table.slotStride.toNat → ∀ slot,
      table.layout.fields[field]? = some slot →
        contentAt after.bytes offset.toNat slot = contentAt table.bytes offset.toNat slot)
    (bears : table.Bears ledger i field value) : after.Bears later i field value := by
  refine ⟨Nat.lt_of_lt_of_le bears.few grown, ?_, ?_⟩
  · rw [framed.slotStride]
    exact fun offset position => given _ (bears.given offset position)
  · rw [framed.slotStride]
    intro offset position
    rw [HeldAt, framed.layout]
    exact (held_at_congr (same offset position)).mpr (bears.held offset position)

theorem step_bears (upheld : table.Upheld ledger) (allowed : ledger.Allows table operation)
    (forward : operation ≠ .rollback) {i field : Nat} {value : Value}
    (aside : ∀ cursor work place, table.through? operation = some (cursor, work) →
      cursor.place = some place → place.offset.toNat ≠ i * table.slotStride.toNat)
    (bears : table.Bears ledger i field value) :
    (table.step operation).Bears (ledger.note table operation (table.answer operation)) i field
      value := by
  have formed := upheld.formed
  have step := step_cases formed operation
  have framed := step_framed step
  have occupied {offset : UInt64} (position : offset.toNat = i * table.slotStride.toNat) :
      offset ∈ table.contents.occupied :=
    (occupied_keys upheld offset).mpr ⟨i, bears.few, position⟩
  cases step_effect upheld allowed step with
  | same bytes contents now =>
    refine bears_kept framed ?_ ?_ (fun _ _ _ _ => by rw [bytes]) bears
    · rw [now]
    · rw [now]
      exact fun _ member => member
  | @entered key fields values room fresh outside keyed reads contents now =>
    refine bears_kept framed ?_ ?_ ?_ bears
    · rw [now, Holdings.enter, List.length_append]
      exact Nat.le_add_right _ _
    · rw [now]
      exact fun pair member => List.mem_append_left _ member
    · intro offset position slot known
      refine content_elsewhere formed formed.counted.next outside (occupied position) ?_ known
      rintro rfl
      exact next_unoccupied formed (occupied position)
  | @changed cursor place work reply session through serves guards change bytes contents now =>
    obtain ⟨outside, -⟩ := change_touches formed serves guards change
    rw [← bytes] at outside
    obtain ⟨j, -, there⟩ := (formed.counted.occupied _).mp guards.occupied
    refine bears_kept framed ?_ ?_ ?_ bears
    · rw [now, Holdings.give_keys]
    · rw [now, Holdings.give_given guards.placed]
      exact fun pair member => List.mem_append_left _ member
    · intro offset position slot known
      refine content_elsewhere formed there outside (occupied position) ?_ known
      rintro rfl
      exact aside cursor work place through guards.placed position
  | undone back => exact absurd back forward

end Kept

end Table

end RecordStore
