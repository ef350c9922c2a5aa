import RecordStore.Proofs.Step
import RecordStore.Proofs.Indistinguishable

namespace RecordStore

theorem agrees_worded {σ α β : Type} {failed : σ → σ → Prop} {done : α → σ → σ → Prop}
    {after : β → σ → σ → Prop} {one other : EStateM Fault σ α} {a b : σ} {word : α → β}
    (agrees : Agrees failed done (one a) (other b))
    (worded : ∀ v a b, done v a b → after (word v) a b) :
    Agrees failed after ((one >>= fun v => pure (word v)) a)
      ((other >>= fun v => pure (word v)) b) :=
  agrees_bind agrees fun v _ _ held => .ok (worded v _ _ held)

namespace Table

variable {base : Memory} {hands : Hands} {a b : Table}

section Look

theorem tried_agrees {α β : Type} (twin : Twin base hands a b) (tried : Table → Except Fault α)
    {done : β → Table → Table → Prop} {next later : α → Action β}
    (blind : ∀ finder walker ahead notices,
      tried { a with finder, walker, ahead, notices } = tried a)
    (rest : ∀ v, tried a = .ok v → Agrees (Twin base hands) done (next v a) (later v b)) :
    Agrees (Twin base hands) done ((attempt (tried a) >>= next) a)
      ((attempt (tried b) >>= later) b) := by
  rw [shares_look twin.shares tried blind]
  exact agrees_attempt twin rest

theorem shares_full (shares : a.Shares b) : b.isFull = a.isFull :=
  shares_look shares isFull fun _ _ _ _ => rfl

theorem shares_key (shares : a.Shares b) (key : Int64) : b.hasKey key = a.hasKey key :=
  shares_look shares (·.hasKey key) fun _ _ _ _ => rfl

theorem shares_bytes (shares : a.Shares b) : b.bytes = a.bytes :=
  shares_look shares bytes fun _ _ _ _ => rfl

theorem more_agrees (twin : Twin base hands a b) (rewound : hands.rewound = true) :
    b.hasMore = a.hasMore := by
  rw [hasMore, hasMore, twin.shares.contents, twin.shares.slotStride, twin.ahead rewound]

end Look

section Append

variable {key : Int64} {value : Value} {offset : UInt64}

theorem refuse_agrees (twin : Twin base hands a b) (one other : Notice) :
    Agrees (Twin base hands) (fun accepted => Twin base (hands.found accepted))
      (refuse one a) (refuse other b) :=
  .ok (twin_noted twin _ _)

theorem register_agrees (twin : Twin base hands a b) :
    Agrees (Twin base hands) (fun _ => Twin base hands) (register key offset a)
      (register key offset b) := by
  refine .ok (twin_filled twin ?_)
  rw [twin.shares.contents, twin.shares.slotStride]

theorem clear_agrees (twin : Twin base hands a b) :
    Agrees (Twin base hands) (fun _ => Twin base hands) (clear offset a) (clear offset b) := by
  rw [clear, get_bind, get_bind]
  refine tried_agrees twin
    (fun table => table.buffer.fill table.memory offset table.layout.stride 0) (fun _ _ _ _ => rfl)
    fun memory put => .ok (twin_stored twin ?_)
  obtain ⟨-, -, rfl⟩ := View.fill_ok.mp put
  exact Memory.poke_within _ _ _ _

theorem write_key_agrees (twin : Twin base hands a b) (held : hands.finder = true) :
    Agrees (Twin base hands) (fun _ => Twin base hands) (writeKey key value a)
      (writeKey key value b) := by
  rw [writeKey, get_bind, get_bind]
  refine tried_agrees twin keySlot (fun _ _ _ _ => rfl) fun slot _ => ?_
  rw [twin.shares.keyPosition]
  cases slot.attrs.sequence with
  | true =>
    exact agrees_bind (cursor_agrees twin held (Session.set_pairs _ _)) fun _ _ _ twin => .ok twin
  | false => exact cursor_agrees twin held (Session.write_pairs _ _ _)

theorem finish_agrees (twin : Twin base hands a b) (held : hands.finder = true) :
    Agrees (Twin base hands) (fun _ => Twin base hands) (finish key value offset a)
      (finish key value offset b) := by
  refine agrees_bind (write_key_agrees twin held) fun accepted a b twin => ?_
  cases accepted with
  | true =>
    refine agrees_bind (cursor_agrees twin held Session.lock_pairs) fun _ a b twin => ?_
    exact agrees_bind (register_agrees twin) fun _ _ _ twin => .ok twin
  | false =>
    have noted : Agrees (Twin base hands) (fun _ => Twin base hands)
        (note (.appendClaimed key) a) (note (.appendClaimed key) b) := .ok (twin_noted twin _ _)
    refine agrees_bind noted fun _ a b twin => ?_
    exact agrees_bind (clear_agrees twin) fun _ _ _ twin => .ok twin

theorem append_agrees (twin : Twin base hands a b) :
    Agrees (Twin base hands) (fun accepted => Twin base (hands.found accepted))
      (append key a) (append key b) := by
  rw [append, get_bind, get_bind, shares_full twin.shares, shares_key twin.shares]
  cases a.isFull with
  | true => exact refuse_agrees twin _ _
  | false =>
    cases a.hasKey key with
    | true => exact refuse_agrees twin _ _
    | false =>
      refine tried_agrees twin (·.keyValue key) (fun _ _ _ _ => rfl) fun value _ => ?_
      rw [twin.shares.contents]
      refine agrees_bind (cursor_moved twin .finder _ Session.header_pairs) fun _ a b twin => ?_
      exact agrees_imp (finish_agrees twin rfl) (fun _ _ twin => twin_found twin false)
        fun accepted _ _ twin => twin_found twin accepted

end Append

section Copy

variable {key : Int64} {offset : UInt64}

theorem find_agrees (twin : Twin base hands a b) :
    Agrees (Twin base hands) (fun _ => Twin base (hands.found true)) (find offset a)
      (find offset b) :=
  cursor_moved twin .finder offset Session.lock_pairs

theorem index_field_agrees (twin : Twin base hands a b) (held : hands.finder = true) (field : Nat) :
    Agrees (Twin base hands) (fun _ => Twin base hands) (indexField offset field a)
      (indexField offset field b) := by
  refine agrees_bind (cursor_agrees twin held (Session.asked_pairs _)) fun value a b twin => ?_
  refine .ok (twin_filled twin ?_)
  rw [twin.shares.contents, twin.shares.memory]

theorem index_fields_agree (twin : Twin base hands a b) (held : hands.finder = true)
    (fields : List Nat) :
    Agrees (Twin base hands) (fun _ => Twin base hands) (fields.forM (indexField offset) a)
      (fields.forM (indexField offset) b) := by
  induction fields generalizing a b with
  | nil => exact .ok twin
  | cons field rest ih =>
    exact agrees_bind (index_field_agrees twin held field) fun _ _ _ twin => ih twin

theorem adopt_agrees (twin : Twin base hands a b) (fields : List Nat) :
    Agrees (Twin base hands) (fun accepted => Twin base (hands.found accepted))
      (adopt key offset fields a) (adopt key offset fields b) := by
  have rest {a b : Table} (twin : Twin base (hands.found true) a b) :
      Agrees (Twin base (hands.found true)) (fun accepted => Twin base (hands.found accepted))
        ((do register key offset; fields.forM (indexField offset); return true : Action Bool) a)
        ((do register key offset; fields.forM (indexField offset); return true : Action Bool) b) :=
    agrees_bind (register_agrees twin) fun _ _ _ twin =>
      agrees_bind (index_fields_agree twin rfl fields) fun _ _ _ twin => .ok twin
  refine agrees_bind (find_agrees twin) fun _ _ _ twin => ?_
  exact agrees_imp (rest twin) (fun _ _ twin => twin_found twin false) fun _ _ _ => id

theorem append_copy_agrees (twin : Twin base hands a b) (source : View) (sourceOffset : UInt64) :
    Agrees (Twin base hands) (fun accepted => Twin base (hands.found accepted))
      (appendCopy source sourceOffset a) (appendCopy source sourceOffset b) := by
  have free : b.contents.nextFree = a.contents.nextFree := congrArg _ twin.shares.contents
  have indexes : b.contents.indexes = a.contents.indexes := congrArg _ twin.shares.contents
  rw [appendCopy, get_bind, get_bind, shares_full twin.shares]
  cases a.isFull with
  | true => exact refuse_agrees twin _ _
  | false =>
    refine tried_agrees twin (·.readKey source sourceOffset) (fun _ _ _ _ => rfl) fun key _ => ?_
    rw [shares_key twin.shares]
    cases a.hasKey key with
    | true => exact refuse_agrees twin _ _
    | false =>
      refine tried_agrees twin (fun table => table.buffer.copy table.memory
        table.contents.nextFree source sourceOffset table.layout.stride) (fun _ _ _ _ => rfl)
        fun memory put => ?_
      obtain ⟨-, -, -, rfl⟩ := View.copy_ok.mp put
      rw [free, indexes]
      exact adopt_agrees (twin_stored twin (Memory.poke_within _ _ _ _)) _

end Copy

theorem visit_agrees (twin : Twin base hands a b) (target : Option UInt64) :
    Agrees (Twin base hands) (fun placed => Twin base (hands.found placed)) (visit target a)
      (visit target b) := by
  cases target with
  | none => exact .ok twin
  | some offset => exact agrees_bind (find_agrees twin) fun _ _ _ twin => .ok twin

theorem next_agrees (twin : Twin base hands a b) (rewound : hands.rewound = true) :
    Agrees (Twin base hands) (fun _ => Twin base hands.walked) (next a) (next b) := by
  have stays : { hands.walked with rewound := true } = hands.walked := by
    rw [Hands.walked, ← rewound]
  rw [next, get_bind, get_bind, more_agrees twin rewound, twin.ahead rewound]
  cases a.hasMore with
  | false => exact .error twin
  | true =>
    refine agrees_bind (cursor_moved twin .walker _ Session.lock_pairs) fun _ a b twin => .ok ?_
    have ahead : b.ahead + b.slotStride = a.ahead + a.slotStride := by
      rw [twin.ahead rewound, twin.shares.slotStride]
    rw [← stays]
    exact twin_ahead twin ahead

theorem rewind_agrees (twin : Twin base hands a b) : Agrees (Twin base hands)
    (fun _ => Twin base { hands with rewound := true }) (rewind a) (rewind b) :=
  .ok (twin_ahead twin rfl)

theorem begin_agrees (twin : Twin base hands a b) :
    Agrees (Twin base hands) (fun _ => Twin base hands) (begin a) (begin b) := by
  have transacts : b.transactional = a.transactional :=
    shares_look twin.shares transactional fun _ _ _ _ => rfl
  have saved : (b.bytes, b.contents) = (a.bytes, a.contents) :=
    shares_look twin.shares (fun table => (table.bytes, table.contents)) fun _ _ _ _ => rfl
  rw [begin, get_bind, get_bind, transacts, saved]
  cases a.transactional with
  | true => exact .ok (twin_saved twin rfl)
  | false =>
    rw [twin.shares.layout]
    exact .error twin

theorem rollback_agrees (twin : Twin base hands a b) :
    Agrees (Twin base hands) (fun _ => Twin base hands) (rollback a) (rollback b) := by
  rw [rollback, get_bind, get_bind, twin.shares.snapshot]
  cases a.snapshot with
  | none => exact .ok twin
  | some saved =>
    refine tried_agrees twin (fun table => table.buffer.store table.memory 0 saved.1)
      (fun _ _ _ _ => rfl) fun memory put => .ok (twin_changed twin ?_ rfl rfl rfl)
    exact Memory.within_trans twin.memory (Memory.store_within put)

theorem poke_agrees (twin : Twin base hands a b) (offset : UInt64) (bytes : Bytes) :
    Agrees (Twin base hands) (fun _ => Twin base hands) (poke offset bytes a)
      (poke offset bytes b) := by
  rw [poke, get_bind, get_bind]
  exact tried_agrees twin (fun table => table.buffer.store table.memory offset bytes)
    (fun _ _ _ _ => rfl) fun memory put => .ok (twin_stored twin (Memory.store_within put))

theorem seek_agrees (twin : Twin base hands a b) {operation : TableOperation}
    (seeks : operation.seeks = true) :
    Agrees (Twin base hands) (fun answer => Twin base (hands.note operation (.ok answer)))
      (operation.run a) (operation.run b) := by
  have target : b.target? operation = a.target? operation :=
    shares_look twin.shares (·.target? operation) fun _ _ _ _ => by cases operation <;> rfl
  rw [seek_run seeks, seek_run seeks, target]
  refine agrees_worded (visit_agrees twin _) fun placed _ _ twin => ?_
  cases operation with
  | seekKey | seekIndex | seekOffset => exact twin
  | _ => cases seeks

theorem run_agrees (twin : Twin base hands a b) (operation : TableOperation)
    (allowed : hands.Allows operation) :
    Agrees (Twin base hands) (fun answer => Twin base (hands.note operation (.ok answer)))
      (operation.run a) (operation.run b) := by
  cases operation with
  | append key => exact agrees_worded (append_agrees twin) fun _ _ _ => id
  | appendCopy source offset =>
    exact agrees_worded (append_copy_agrees twin source offset) fun _ _ _ => id
  | seekKey | seekIndex | seekOffset => exact seek_agrees twin rfl
  | hasKey key =>
    rw [TableOperation.run, get_bind, get_bind, shares_key twin.shares]
    exact .ok twin
  | offsetOfIndex i =>
    have same : b.offsetOfIndex i = a.offsetOfIndex i :=
      shares_look twin.shares (·.offsetOfIndex i) fun _ _ _ _ => rfl
    rw [TableOperation.run, get_bind, get_bind, same]
    exact .ok twin
  | withValue field value =>
    rw [TableOperation.run, get_bind, get_bind]
    exact tried_agrees twin (·.withValue field value) (fun _ _ _ _ => rfl) fun _ _ => .ok twin
  | hasMore =>
    rw [TableOperation.run, get_bind, get_bind, more_agrees twin allowed]
    exact .ok twin
  | next => exact agrees_worded (next_agrees twin allowed) fun _ _ _ => id
  | rewind =>
    refine agrees_bind (rewind_agrees twin) fun _ a b twin => ?_
    rw [get_bind, get_bind, more_agrees twin rfl]
    exact .ok twin
  | begin => exact agrees_worded (begin_agrees twin) fun _ _ _ => id
  | commit => exact .ok (twin_saved twin rfl)
  | rollback => exact agrees_worded (rollback_agrees twin) fun _ _ _ => id
  | poke offset bytes => exact agrees_worded (poke_agrees twin offset bytes) fun _ _ _ => id
  | on role operation =>
    exact agrees_worded (cursor_agrees twin allowed (Session.operation_pairs _ operation))
      fun _ _ _ => id

theorem step_twin (twin : Twin base hands a b) (operation : TableOperation)
    (allowed : hands.Allows operation) : b.answer operation = a.answer operation ∧
      Twin base (hands.note operation (a.answer operation)) (a.step operation)
        (b.step operation) := by
  have agrees := run_agrees twin operation allowed
  rw [answer, answer, step, step]
  generalize operation.run a = left at agrees ⊢
  generalize operation.run b = right at agrees ⊢
  cases agrees with
  | ok held => exact ⟨rfl, held⟩
  | error held =>
    refine ⟨rfl, ?_⟩
    rw [Hands.note_error]
    exact held

theorem sight_twin (twin : Twin base hands a b) : b.sight hands = a.sight hands := by
  have seen (role : Role) : (if hands.cursor role then some (b.cursor role) else none) =
      if hands.cursor role then some (a.cursor role) else none := by
    split
    · next held => rw [((twin_cursor twin role).same held).1]
    · rfl
  have finder : (if hands.finder then some b.finder else none) =
      if hands.finder then some a.finder else none := seen .finder
  have walker : (if hands.walker then some b.walker else none) =
      if hands.walker then some a.walker else none := seen .walker
  have checksum : b.crc32 = a.crc32 := shares_look twin.shares crc32 fun _ _ _ _ => rfl
  have pending : b.pending = a.pending := shares_look twin.shares pending fun _ _ _ _ => rfl
  rw [sight, sight, finder, walker, shares_bytes twin.shares, checksum, pending,
    twin.shares.contents]

theorem watch_twin (twin : Twin base hands a b) (operations : List TableOperation)
    (handed : a.Handed hands operations) : b.watch hands operations = a.watch hands operations := by
  induction operations generalizing a b hands with
  | nil => rfl
  | cons operation rest ih =>
    obtain ⟨allowed, handed⟩ := handed
    obtain ⟨answer, twin⟩ := step_twin twin operation allowed
    rw [watch, watch, answer, sight_twin twin, ih twin handed]

theorem after_twin (twin : Twin base hands a b) (operations : List TableOperation)
    (handed : a.Handed hands operations) :
    Twin base (a.hands hands operations) (a.after operations) (b.after operations) := by
  induction operations generalizing a b hands with
  | nil => exact twin
  | cons operation rest ih =>
    obtain ⟨allowed, handed⟩ := handed
    exact ih (step_twin twin operation allowed).2 handed

section Own

variable {start : Table}

theorem create_twin {memory : Memory} {layout : Option Layout} {capacity : UInt64}
    {options : TableOptions} (created : create memory layout capacity options = .ok start) :
    Twin start.memory Hands.fresh start start := by
  obtain ⟨known, -, made⟩ := create_ok created
  have resident {cursor : Cursor} (fresh : cursor = { layout := known, reports := true }) :
      cursor.Resident start.layout start.buffer := by
    rw [fresh]
    exact ⟨made.shape.symm, rfl, nofun⟩
  exact ⟨⟨rfl, rfl, rfl, rfl, rfl, rfl, rfl, rfl⟩, Memory.within_refl _,
    ⟨resident made.finder, resident made.finder, nofun⟩,
    ⟨resident made.walker, resident made.walker, nofun⟩, fun _ => rfl⟩

structure Whole (table : Table) : Prop where
  start : table.buffer.start = 0
  size : (table.memory.region table.buffer.region).size = table.buffer.size.toNat

theorem create_whole {memory : Memory} {layout : Option Layout} {capacity : UInt64}
    {options : TableOptions} (created : create memory layout capacity options = .ok start) :
    start.Whole := by
  obtain ⟨_, -, made⟩ := create_ok created
  refine ⟨by rw [made.buffer], ?_⟩
  rw [made_bytes made, Region.blank, Array.size_replicate]

theorem whole_within {after : Table} (whole : start.Whole) (buffer : after.buffer = start.buffer)
    (within : start.memory.Within start.buffer.region after.memory) : after.Whole := by
  refine ⟨by rw [buffer, whole.start], ?_⟩
  rw [buffer, within.size, whole.size]

theorem after_own {memory : Memory} {layout : Option Layout} {capacity : UInt64}
    {options : TableOptions} (created : create memory layout capacity options = .ok start)
    (operations : List TableOperation) (handed : start.Handed Hands.fresh operations) :
    Twin (start.after operations).memory (start.hands Hands.fresh operations)
      (start.after operations) (start.after operations) ∧ (start.after operations).Whole := by
  have twin := after_twin (create_twin created) operations handed
  have framed := after_fixed start operations (create_sound created)
  have memory := twin.memory
  rw [framed.buffer] at memory
  exact ⟨⟨twin.shares, Memory.within_refl _, twin.finder, twin.walker, twin.ahead⟩,
    whole_within (create_whole created) framed.buffer memory⟩

end Own

end Table

end RecordStore
