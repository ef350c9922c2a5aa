import RecordStore.Proofs.Agreement
import RecordStore.Proofs.Handing

/-!
Tables that share everything but the cursors that were not handed out, the place of a walk that was
not started, and what was reported.
-/

namespace RecordStore

namespace Cursor

structure Resident (layout : Layout) (home : View) (cursor : Cursor) : Prop where
  shape : cursor.layout = layout
  reports : cursor.reports = true
  home : ∀ place, cursor.place = some place → home.sameBytes place.buffer = true

structure Like (layout : Layout) (home : View) (held : Bool) (one other : Cursor) : Prop where
  here : one.Resident layout home
  there : other.Resident layout home
  same : held = true → other = one ∧ one.isBound = true

variable {layout : Layout} {home : View} {base : Memory} {one other : Cursor}

theorem resident_stays (resident : one.Resident layout home) :
    one.place.any (!home.sameBytes ·.buffer) = false := by
  cases placed : one.place with
  | none => rfl
  | some place => rw [Option.any_some, resident.home place placed, Bool.not_true]

theorem resident_bind (here : one.Resident layout home) (there : other.Resident layout home)
    (offset : UInt64) : other.bind home offset = one.bind home offset := by
  rw [bind, bind, resident_stays here, resident_stays there, here.shape, there.shape, here.reports,
    there.reports]

theorem resident_moves (resident : one.Resident layout home) {offset : UInt64}
    (room : offset.toNat + layout.stride.toNat ≤ home.size.toNat) :
    ∃ moved, one.bind home offset = .ok moved := by
  refine ⟨_, move_ok.mpr ⟨?_, ?_, rfl⟩⟩
  · rw [resident.shape]
    exact room
  · rw [resident_stays resident, Bool.and_false]

theorem like_weaken {held asked : Bool} (like : Like layout home held one other)
    (less : asked = true → held = true) : Like layout home asked one other :=
  ⟨like.here, like.there, fun wanted => like.same (less wanted)⟩

theorem like_settled (like : Like layout home true one other) {memory : Memory}
    (within : base.Within home.region memory) {owner : List ValueIndex} {told heard : List Notice} :
    Session.Twin layout home base ⟨one, memory, owner, told⟩ ⟨other, memory, owner, heard⟩ := by
  obtain ⟨same, bound⟩ := like.same rfl
  obtain ⟨place, placed⟩ := Option.isSome_iff_exists.mp bound
  exact ⟨⟨same, rfl, rfl⟩, like.here.shape, like.here.reports,
    ⟨place, placed, like.here.home place placed⟩, within⟩

theorem settled_like {one other : Session (List ValueIndex)}
    (twin : Session.Twin layout home base one other) (held : Bool) :
    Like layout home held one.cursor other.cursor := by
  obtain ⟨⟨same, -, -⟩, ⟨shape, reports, ⟨place, placed, stays⟩, -⟩⟩ := twin
  have resident : one.cursor.Resident layout home := by
    refine ⟨shape, reports, fun there standing => ?_⟩
    cases placed.symm.trans standing
    exact stays
  refine ⟨resident, ?_, fun _ => ⟨same, ?_⟩⟩
  · rw [same]
    exact resident
  · rw [isBound, placed]
    rfl

end Cursor

namespace Table

structure Shares (one other : Table) : Prop where
  layout : other.layout = one.layout
  keyPosition : other.keyPosition = one.keyPosition
  capacity : other.capacity = one.capacity
  slotStride : other.slotStride = one.slotStride
  memory : other.memory = one.memory
  buffer : other.buffer = one.buffer
  contents : other.contents = one.contents
  snapshot : other.snapshot = one.snapshot

-- Nothing was done to memory outside the buffer of the tables since it was like the base.
structure Twin (base : Memory) (hands : Hands) (one other : Table) : Prop where
  shares : one.Shares other
  memory : base.Within one.buffer.region one.memory
  finder : Cursor.Like one.layout one.buffer hands.finder one.finder other.finder
  walker : Cursor.Like one.layout one.buffer hands.walker one.walker other.walker
  ahead : hands.rewound = true → other.ahead = one.ahead

variable {base : Memory} {hands : Hands} {a b : Table}

theorem shares_look {β : Type} (shares : a.Shares b) (look : Table → β)
    (blind : ∀ finder walker ahead notices,
      look { a with finder, walker, ahead, notices } = look a) : look b = look a := by
  have other : b = { a with
      finder := b.finder, walker := b.walker, ahead := b.ahead, notices := b.notices } := by
    obtain ⟨layout, keyPosition, capacity, slotStride, memory, buffer, contents, snapshot⟩ := shares
    rw [← layout, ← keyPosition, ← capacity, ← slotStride, ← memory, ← buffer, ← contents,
      ← snapshot]
  rw [other, blind]

theorem twin_changed (twin : Twin base hands a b) {memory left : Memory} {contents held : Contents}
    {snapshot saved : Option (Bytes × Contents)} {told heard : List Notice}
    (within : base.Within a.buffer.region memory) (memories : left = memory)
    (filled : held = contents) (snapshots : saved = snapshot) :
    Twin base hands { a with memory, contents, snapshot, notices := told }
      { b with memory := left, contents := held, snapshot := saved, notices := heard } :=
  ⟨⟨twin.shares.layout, twin.shares.keyPosition, twin.shares.capacity, twin.shares.slotStride,
    memories, twin.shares.buffer, filled, snapshots⟩, within, twin.finder, twin.walker, twin.ahead⟩

theorem twin_noted (twin : Twin base hands a b) (told heard : List Notice) :
    Twin base hands { a with notices := told } { b with notices := heard } :=
  twin_changed twin twin.memory twin.shares.memory twin.shares.contents twin.shares.snapshot

theorem twin_filled (twin : Twin base hands a b) {contents held : Contents} {told heard : List Notice}
    (filled : held = contents) : Twin base hands { a with contents, notices := told }
      { b with contents := held, notices := heard } :=
  twin_changed twin twin.memory twin.shares.memory filled twin.shares.snapshot

theorem twin_stored (twin : Twin base hands a b) {memory : Memory}
    (put : a.memory.Within a.buffer.region memory) :
    Twin base hands { a with memory } { b with memory } :=
  twin_changed twin (Memory.within_trans twin.memory put) rfl twin.shares.contents
    twin.shares.snapshot

theorem twin_saved (twin : Twin base hands a b) {snapshot saved : Option (Bytes × Contents)}
    (snapshots : saved = snapshot) : Twin base hands { a with snapshot } { b with snapshot := saved } :=
  twin_changed twin twin.memory twin.shares.memory twin.shares.contents snapshots

theorem twin_ahead (twin : Twin base hands a b) {one other : UInt64} (same : other = one) :
    Twin base { hands with rewound := true } { a with ahead := one } { b with ahead := other } :=
  ⟨⟨twin.shares.layout, twin.shares.keyPosition, twin.shares.capacity, twin.shares.slotStride,
    twin.shares.memory, twin.shares.buffer, twin.shares.contents, twin.shares.snapshot⟩, twin.memory,
    twin.finder, twin.walker, fun _ => same⟩

theorem twin_found (twin : Twin base (hands.found true) a b) (placed : Bool) :
    Twin base (hands.found placed) a b :=
  ⟨twin.shares, twin.memory, Cursor.like_weaken twin.finder fun _ => rfl, twin.walker, twin.ahead⟩

theorem twin_cursor (twin : Twin base hands a b) (role : Role) :
    Cursor.Like a.layout a.buffer (hands.cursor role) (a.cursor role) (b.cursor role) := by
  cases role with
  | finder => exact twin.finder
  | walker => exact twin.walker

theorem handed_held {role : Role} (held : hands.cursor role = true) : hands.handed role = hands := by
  obtain ⟨finder, walker, rewound⟩ := hands
  cases role with
  | finder | walker =>
    cases held
    rfl

theorem twin_handed {role : Role} (twin : Twin base (hands.handed role) a b) :
    Twin base hands a b := by
  cases role with
  | finder => exact twin_found twin false
  | walker =>
    exact ⟨twin.shares, twin.memory, twin.finder, Cursor.like_weaken twin.walker fun _ => rfl,
      twin.ahead⟩

section Through

variable {α : Type} {work : Session.Action (List ValueIndex) α}
  {one other : Session (List ValueIndex)}

theorem shares_settled (shares : a.Shares b) (same : one.Same other) (role : Role) :
    (a.settle role one).Shares (b.settle role other) := by
  refine ⟨shares.layout, shares.keyPosition, shares.capacity, shares.slotStride, same.memory,
    shares.buffer, ?_, shares.snapshot⟩
  change { b.contents with indexes := other.owner } = { a.contents with indexes := one.owner }
  rw [shares.contents, same.owner]

theorem twin_settled (twin : Twin base hands a b) (role : Role)
    (sessions : Session.Twin a.layout a.buffer base one other) :
    Twin base (hands.handed role) (a.settle role one) (b.settle role other) := by
  have shares := shares_settled twin.shares sessions.same role
  have like := Cursor.settled_like sessions true
  cases role with
  | finder => exact ⟨shares, sessions.settled.memory, like, twin.walker, twin.ahead⟩
  | walker => exact ⟨shares, sessions.settled.memory, twin.finder, like, twin.ahead⟩

theorem twin_sessions (twin : Twin base hands a b) {cursor tracer : Cursor}
    (like : Cursor.Like a.layout a.buffer true cursor tracer) :
    Session.Twin a.layout a.buffer base (a.session cursor) (b.session tracer) := by
  rw [session, session, twin.shares.memory, twin.shares.contents]
  exact Cursor.like_settled like twin.memory

-- Where the cursors stood before they are moved does not matter, unless they cannot be moved.
theorem moving_agrees (twin : Twin base hands a b) {held : Bool} {cursor tracer : Cursor}
    (like : Cursor.Like a.layout a.buffer held cursor tracer) (offset : UInt64)
    (pairs : Pairs (Session.Twin a.layout a.buffer base) work) :
    Agrees (fun one other => one = a.session cursor ∧ other = b.session tracer ∨
        Session.Twin a.layout a.buffer base one other)
      (fun _ => Session.Twin a.layout a.buffer base)
      ((Session.bind a.buffer offset >>= fun _ => work) (a.session cursor))
      ((Session.bind b.buffer offset >>= fun _ => work) (b.session tracer)) := by
  have same := Cursor.resident_bind like.here like.there offset
  rw [twin.shares.buffer]
  cases bound : cursor.bind a.buffer offset with
  | error fault =>
    have one : (a.session cursor).cursor.bind a.buffer offset = .error fault := bound
    have other : (b.session tracer).cursor.bind a.buffer offset = .error fault := same.trans bound
    rw [bind_error (move_fault one), bind_error (move_fault other)]
    exact .error (.inl ⟨rfl, rfl⟩)
  | ok moved =>
    have one : (a.session cursor).cursor.bind a.buffer offset = .ok moved := bound
    have other : (b.session tracer).cursor.bind a.buffer offset = .ok moved := same.trans bound
    rw [bind_ok (move_run one), bind_ok (move_run other)]
    obtain ⟨-, -, rfl⟩ := Cursor.move_ok.mp bound
    have stays : a.buffer.sameBytes a.buffer = true := View.same_bytes_iff.mpr ⟨rfl, rfl, rfl⟩
    refine agrees_imp (pairs _ _ ?_) (fun _ _ => .inr) fun _ _ _ => id
    exact ⟨⟨rfl, twin.shares.memory, congrArg Contents.indexes twin.shares.contents⟩,
      like.here.shape, like.here.reports, ⟨_, rfl, stays⟩, twin.memory⟩

section On

variable {task : Session.Action (List ValueIndex) α}
  {failing : Session (List ValueIndex) → Session (List ValueIndex) → Prop}
  {finishing : α → Session (List ValueIndex) → Session (List ValueIndex) → Prop}
  {failed : Table → Table → Prop} {done : α → Table → Table → Prop}

theorem with_cursor_agrees (role : Role)
    (agrees : Agrees failing finishing (work (a.session (a.cursor role)))
      (task (b.session (b.cursor role))))
    (faults : ∀ one other, failing one other → failed (a.settle role one) (b.settle role other))
    (answers : ∀ v one other, finishing v one other →
      done v (a.settle role one) (b.settle role other)) :
    Agrees failed done (withCursor role work a) (withCursor role task b) := by
  rw [withCursor, withCursor]
  generalize work (a.session (a.cursor role)) = left at agrees ⊢
  generalize task (b.session (b.cursor role)) = right at agrees ⊢
  cases agrees with
  | ok held => exact .ok (answers _ _ _ held)
  | error held => exact .error (faults _ _ held)

end On

theorem cursor_agrees (twin : Twin base hands a b) {role : Role} (held : hands.cursor role = true)
    (pairs : Pairs (Session.Twin a.layout a.buffer base) work) :
    Agrees (Twin base hands) (fun _ => Twin base hands) (withCursor role work a)
      (withCursor role work b) := by
  have kept (one other : Session (List ValueIndex))
      (sessions : Session.Twin a.layout a.buffer base one other) :=
    handed_held held ▸ twin_settled twin role sessions
  exact with_cursor_agrees role (pairs _ _ (twin_sessions twin (held ▸ twin_cursor twin role))) kept
    fun _ => kept

theorem cursor_moved (twin : Twin base hands a b) (role : Role) (offset : UInt64)
    (pairs : Pairs (Session.Twin a.layout a.buffer base) work) :
    Agrees (Twin base hands) (fun _ => Twin base (hands.handed role))
      (withCursor role (Session.bind a.buffer offset >>= fun _ => work) a)
      (withCursor role (Session.bind b.buffer offset >>= fun _ => work) b) := by
  refine with_cursor_agrees role (moving_agrees twin (twin_cursor twin role) offset pairs) ?_
    fun _ _ _ => twin_settled twin role
  intro one other failed
  obtain ⟨rfl, rfl⟩ | sessions := failed
  · rw [settle_session, settle_session]
    exact twin
  · exact twin_handed (twin_settled twin role sessions)

end Through

end Table

end RecordStore
