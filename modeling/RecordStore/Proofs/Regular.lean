import RecordStore.Proofs.Effect

namespace RecordStore.Table

section Step

variable {before after : Table} {ledger : Ledger} {operation : TableOperation}
  {answer : Except Fault TableAnswer}

theorem tallied_framed (framed : before.Framed after) {bytes : Bytes} {contents : Contents}
    {keys : List Int64} (tallied : before.Tallied bytes contents keys) :
    after.Tallied bytes contents keys := by
  obtain ⟨whole, count, distinct, byKey, stored, blank, claimed⟩ := tallied
  refine ⟨?_, count, distinct, ?_, ?_, ?_, ?_⟩
  · rw [framed.buffer]
    exact whole
  · rw [framed.slotStride]
    exact byKey
  · rw [framed.slotStride]
    intro i key known
    rw [KeyAt, framed.layout, framed.keyPosition]
    exact stored i key known
  · rw [framed.slotStride, framed.layout]
    exact blank
  · rw [Claims, framed.keyPosition]
    exact claimed

theorem change_claims {cursor : Cursor} {place : Place} {work : CursorOperation}
    {reply : CursorAnswer} {session : Session (List ValueIndex)} (formed : before.Formed)
    (serves : before.Serves cursor) (guards : before.Guards cursor place)
    (change : Change indexOwner (before.session cursor) work reply session) :
    ∀ index ∈ session.owner, index.field = before.keyPosition →
      index ∈ before.contents.indexes := by
  cases change with
  | @written _ field value place slot memory notices writes accepts free put =>
    have column := accepts.field
    rw [session_cursor, serves.shape] at column
    dsimp only
    rw [consult_owner, session_cursor, session_owner, inform_all formed.counted.heads serves column]
    intro index member key
    obtain ⟨old, known, rfl⟩ := List.mem_map.mp member
    rw [ValueIndex.enterAll] at key ⊢
    by_cases here : old.field ∈ [field]
    · rw [if_pos here] at key
      obtain ⟨found, position, keyed, -⟩ := formed.key
      have same : field = before.keyPosition := (List.mem_singleton.mp here).symm.trans key
      rw [same, position] at column
      cases column
      have unlocked := accepts.unlocked
      rw [keyed, session_cursor, guards.locked] at unlocked
      cases unlocked
    · rw [if_neg here]
      exact known
  | refused =>
    dsimp only
    rw [consult_owner]
    exact fun _ member _ => member
  | _ => exact fun _ member _ => member

theorem enter_names (knows : ValueIndex → Value → Prop) (formed : before.Formed)
    (learns : ∀ index offset value other, knows (ValueIndex.assign index offset value) other →
      other = value ∨ knows index other)
    {keys : List Int64} {key : Int64} {offset : UInt64}
    {bytes : Bytes} {fields : List Nat} {values : Nat → Value}
    (names : before.Names knows before.contents.indexes keys)
    (keyed : before.KeyAt bytes offset.toNat key)
    (reads : ∀ field ∈ fields, ∀ slot, before.layout.fields[field]? = some slot →
      slot.attrs.indexed = true →
        Value.decode? slot.type (contentAt bytes offset.toNat slot) = some (values field)) :
    before.Names knows (before.contents.indexes.map (ValueIndex.enterAll fields offset values))
      (keys ++ [key]) := by
  intro index member position value known
  obtain ⟨old, present, rfl⟩ := List.mem_map.mp member
  rw [ValueIndex.enterAll] at position known
  have older (there : old.field = before.keyPosition) (knew : knows old value) :
      ∃ other ∈ keys ++ [key], value.integer? = some other := by
    obtain ⟨other, listed, whole⟩ := names old present there value knew
    exact ⟨other, List.mem_append_left _ listed, whole⟩
  by_cases entered : old.field ∈ fields
  · rw [if_pos entered] at position known
    rcases learns _ _ _ _ known with rfl | knew
    · obtain ⟨column, shape, indexed, -⟩ := head_of_mem formed.counted.heads present
      have decoded := reads old.field entered column shape indexed
      obtain ⟨slot, found, read⟩ := keyed
      have there : old.field = before.keyPosition := position
      rw [there, found] at shape
      cases shape
      exact ⟨key, by simp, (signed_iff decoded).mp read⟩
    · exact older position knew
  · rw [if_neg entered] at position known
    exact older position known

theorem effect_tallied (upheld : before.Upheld ledger) {later : Ledger}
    (effect : before.Effect operation after ledger later) (forward : operation ≠ .rollback) :
    before.Tallied after.bytes after.contents later.now.keys := by
  have formed := upheld.formed
  have tallied := upheld.tracks.now
  cases effect with
  | same bytes contents now =>
    rw [bytes, contents, now]
    exact tallied
  | @entered key fields values room fresh outside keyed reads contents now =>
    rw [contents, now]
    apply tallied_enter formed tallied room fresh outside keyed
    exact enter_names (fun index value => value ∈ index.claimed) formed
      (fun _ _ _ _ => assign_claimed) tallied.claimed keyed reads
  | changed through serves guards change bytes contents now =>
    obtain ⟨outside, same⟩ := change_touches formed serves guards change
    obtain ⟨i, few, position⟩ := (formed.counted.occupied _).mp guards.occupied
    rw [bytes, contents, now, Holdings.give_keys]
    rw [position] at outside same
    rw [tallied.count] at few
    apply tallied_indexes (tallied_touch formed tallied few outside same)
    intro index member key
    exact tallied.claimed index (change_claims formed serves guards change index member key) key
  | undone back => exact absurd back forward

theorem ahead_occupied (formed : before.Formed)
    (aligned : ∃ i ≤ before.capacity.toNat, before.ahead.toNat = i * before.slotStride.toNat)
    (more : before.hasMore = true)
    (room : before.ahead.toNat + before.layout.stride.toNat ≤ before.buffer.size.toNat) :
    before.ahead ∈ before.contents.occupied := by
  obtain ⟨i, few, position⟩ := ahead_below formed aligned room
  have next := ahead_next formed few position
  rw [hasMore, Bool.and_eq_true, decide_eq_true_eq, UInt64.le_iff_toNat_le, next,
    formed.counted.next] at more
  have below := Nat.le_of_mul_le_mul_right more.2 (stride_positive formed)
  exact (formed.counted.occupied _).mpr ⟨i, below, position⟩

section Guarded

variable (upheld : before.Upheld ledger) (allowed : ledger.Allows before operation)
  (step : Step before operation answer after)
include upheld allowed step

theorem step_guarded (role : Role)
    (placed : (ledger.note before operation answer).placed role = true) :
    ∃ place, after.Guards (after.cursor role) place := by
  have formed := upheld.formed
  have framed := step_framed step
  have some_placed : (ledger.note before operation answer).finderPlaced = true ∨
      (ledger.note before operation answer).walkerPlaced = true := by
    cases role with
    | finder => exact .inl placed
    | walker => exact .inr placed
  have kept := effect_keeps formed (step_effect upheld allowed step) some_placed
  have stays (before_placed : ledger.placed role = true) :
      ∃ place, after.Guards (before.cursor role) place := by
    obtain ⟨place, guards⟩ := upheld_cursor upheld before_placed
    exact ⟨place, guards_kept framed kept guards⟩
  cases step with
  | failed | stuck =>
    rw [Ledger.note_error] at placed
    exact stays placed
  | refused =>
    rw [Ledger.note_refused] at placed
    exact stays placed
  | asked asks =>
    rw [Ledger.note_asked asks] at placed
    exact stays placed
  | rewound =>
    rw [Ledger.note_rewound] at placed
    exact stays placed
  | found target =>
    rw [Ledger.note_sought (target_seeks target)] at placed
    cases role with
    | finder => exact ⟨_, guards_onto (kept.occupied _ (target_occupied formed target)) _⟩
    | walker => exact stays placed
  | appended =>
    cases role with
    | finder => exact ⟨_, guards_onto (enter_occupied.mpr (.inl rfl)) _⟩
    | walker => exact stays placed
  | copied room read =>
    rw [Ledger.note_copied read] at placed
    cases role with
    | finder => exact ⟨_, guards_onto (enter_occupied.mpr (.inl rfl)) _⟩
    | walker => exact stays placed
  | rejected room fresh known fits taken =>
    rw [lets_key upheld (key_value_ok known fits) fresh] at taken
    cases taken
  | walked more room =>
    cases role with
    | finder => exact stays placed
    | walker =>
      exact ⟨_, guards_onto
        (kept.occupied _ (ahead_occupied formed upheld.homed.ahead more room)) _⟩
  | begun | committed => exact stays placed
  | undone => cases role <;> cases placed
  | poked => exact allowed.elim
  | @changed worker _ _ _ change =>
    obtain ⟨place, guards⟩ := upheld_cursor upheld allowed.2
    have guarded :=
      guards_kept framed kept (change_guards formed (formed_cursor formed worker) guards change)
    -- The cursor at work, or the other one, which stays.
    cases worker <;> cases role
    · exact ⟨place, guarded⟩
    · exact stays placed
    · exact stays placed
    · exact ⟨place, guarded⟩
  | moved move =>
    exact absurd (move_moves move) (Bool.eq_false_iff.mp allowed.1)

end Guarded

theorem step_upheld (table : Table) (operation : TableOperation) (upheld : table.Upheld ledger)
    (allowed : ledger.Allows table operation) :
    (table.step operation).Upheld (ledger.note table operation (table.answer operation)) := by
  have formed := upheld.formed
  have step := step_cases formed operation
  have framed := step_framed step
  refine ⟨step_formed table operation formed,
    step_homed table operation formed upheld.homed (Ledger.allows_stays allowed), ?_,
    step_guarded upheld allowed step .finder, step_guarded upheld allowed step .walker⟩
  have tracks := step_tracks formed step upheld.tracks
    (effect_tallied upheld (step_effect upheld allowed step))
  exact tracks_imp (fun _ _ _ => tallied_framed framed) tracks

end Step

section Run

variable {memory : Memory} {layout : Layout} {capacity : UInt64} {options : TableOptions}
  {start : Table} {operations : List TableOperation} {ledger : Ledger}

theorem create_tallied (created : create memory (some layout) capacity options = .ok start)
    (formed : start.Formed) : start.Tallied start.bytes start.contents [] := by
  obtain ⟨known, same, made⟩ := create_ok created
  cases same
  refine ⟨bytes_whole formed, ?_, List.nodup_nil, ?_, ?_, ?_, ?_⟩
  · rw [made.contents]
    rfl
  · intro key offset
    rw [made.contents, Contents.blank, Std.ExtTreeMap.getElem?_empty]
    constructor
    · intro found
      cases found
    · intro shown
      obtain ⟨i, known, -⟩ := shown
      cases known
  · intro i key known
    cases known
  · intro pos byte found _
    rw [bytes, View.bytes_get, made_bytes made, Region.blank, Array.getElem?_replicate] at found
    split at found
    · split at found
      · exact (Option.some.inj found).symm
      · cases found
    · cases found
  · intro index member _ value claimed
    rw [made.contents] at member
    obtain ⟨field, unique, rfl⟩ := Contents.blank_new member
    exact absurd claimed Std.ExtTreeSet.not_mem_empty

theorem create_upheld (created : create memory (some layout) capacity options = .ok start)
    (packed : layout.Packed)
    (wide : layout.stride.toNat + options.slotPadding.toNat < UInt64.size) : start.Upheld {} := by
  have formed := create_formed created packed wide
  obtain ⟨known, same, made⟩ := create_ok created
  refine ⟨formed, create_homed created, ⟨create_tallied created formed, ?_⟩, ?_, ?_⟩
  · intro bytes contents saved
    rw [made.snapshot] at saved
    cases saved
  · intro placed
    cases placed
  · intro placed
    cases placed

theorem regular_upheld (operations : List TableOperation) (upheld : start.Upheld ledger)
    (regular : start.Regular ledger operations) :
    (start.after operations).Upheld (start.noted ledger operations) := by
  induction operations generalizing start ledger with
  | nil => exact upheld
  | cons operation rest ih =>
    obtain ⟨allowed, later⟩ := regular
    exact ih (step_upheld start operation upheld allowed) later

-- What every effect keeps, the ledger being right, holds after every regular run, whatever is taken back.
theorem regular_tracks (fact : Table → Bytes → Contents → Holdings → Prop)
    (fine : TableOperation → Prop)
    (framing : ∀ {before after : Table}, before.Framed after →
      ∀ bytes contents held, fact before bytes contents held → fact after bytes contents held)
    (keeps : ∀ {before after : Table} {operation : TableOperation} {ledger later : Ledger},
      fine operation → before.Upheld ledger → fact before before.bytes before.contents ledger.now →
      before.Effect operation after ledger later → operation ≠ .rollback →
        fact before after.bytes after.contents later.now)
    (operations : List TableOperation) (upheld : start.Upheld ledger)
    (tracks : Tracks (fact start) start ledger) (regular : start.Regular ledger operations)
    (fair : ∀ operation ∈ operations, fine operation) :
    fact (start.after operations) (start.after operations).bytes (start.after operations).contents
      (start.noted ledger operations).now := by
  induction operations generalizing start ledger with
  | nil => exact tracks.now
  | cons operation rest ih =>
    obtain ⟨allowed, later⟩ := regular
    have step := step_cases upheld.formed operation
    have effect := step_effect upheld allowed step
    have stepped := step_tracks upheld.formed step tracks
      (keeps (fair operation List.mem_cons_self) upheld tracks.now effect)
    exact ih (step_upheld start operation upheld allowed)
      (tracks_imp (framing (step_framed step)) stepped) later
      fun other member => fair other (List.mem_cons_of_mem operation member)

theorem after_framed (formed : start.Formed) (operations : List TableOperation) :
    start.Framed (start.after operations) :=
  after_fixed start operations formed.sound

end Run

def Finds (table : Table) (operation : TableOperation) (i : Nat) : Prop :=
  table.answer operation = .ok (.truth true) ∧ ∃ offset : UInt64,
    offset.toNat = i * table.slotStride.toNat ∧
      table.step operation = { table with finder := table.finder.onto table.buffer offset }

def Misses (table : Table) (operation : TableOperation) : Prop :=
  table.answer operation = .ok (.truth false) ∧ table.step operation = table

def OnRecord (table : Table) (cursor : Cursor) : Prop :=
  ∃ offset ∈ table.contents.occupied,
    cursor.place = some ⟨table.buffer, offset⟩ ∧ cursor.keyLocked = true

theorem guards_on_record {table : Table} {cursor : Cursor}
    (guarded : ∃ place, table.Guards cursor place) : table.OnRecord cursor := by
  obtain ⟨⟨_, offset⟩, guards⟩ := guarded
  cases guards.here
  exact ⟨offset, guards.occupied, guards.placed, guards.locked⟩

structure Consistent (table : Table) (ledger : Ledger) : Prop where
  count : table.contents.count.toNat = ledger.now.keys.length
  limit : ledger.now.keys.length ≤ table.capacity.toNat
  next : table.contents.nextFree.toNat = ledger.now.keys.length * table.slotStride.toNat
  distinct : ledger.now.keys.Nodup
  occupied : ∀ offset : UInt64, offset ∈ table.contents.occupied ↔
    ∃ i < ledger.now.keys.length, offset.toNat = i * table.slotStride.toNat
  byKey : ∀ (key : Int64) (offset : UInt64), table.contents.offsetByKey[key]? = some offset ↔
    ∃ i : Nat, ledger.now.keys[i]? = some key ∧ offset.toNat = i * table.slotStride.toNat
  stored : ∀ (i : Nat) (key : Int64) (offset : UInt64), ledger.now.keys[i]? = some key →
    offset.toNat = i * table.slotStride.toNat → table.readKey table.buffer offset = .ok key
  blank : ∀ (pos : Nat) (byte : UInt8), table.bytes[pos]? = some byte →
    (∀ i < ledger.now.keys.length, pos < i * table.slotStride.toNat ∨
      i * table.slotStride.toNat + table.layout.stride.toNat ≤ pos) → byte = 0
  keyFound : ∀ (i : Nat) (key : Int64), ledger.now.keys[i]? = some key →
    table.Finds (.seekKey key) i
  keyMissed : ∀ key : Int64, key ∉ ledger.now.keys → table.Misses (.seekKey key)
  indexFound : ∀ i : UInt64, i.toNat < ledger.now.keys.length → table.Finds (.seekIndex i) i.toNat
  indexMissed : ∀ i : UInt64, ledger.now.keys.length ≤ i.toNat → table.Misses (.seekIndex i)
  offsetFound : ∀ (i : Nat) (offset : UInt64), i < ledger.now.keys.length →
    offset.toNat = i * table.slotStride.toNat → table.Finds (.seekOffset offset) i
  offsetMissed : ∀ offset : UInt64,
    (∀ i < ledger.now.keys.length, offset.toNat ≠ i * table.slotStride.toNat) →
      table.Misses (.seekOffset offset)
  walks : ∀ i < ledger.now.keys.length, table.ahead.toNat = i * table.slotStride.toNat →
    table.answer .next = .ok .done ∧ table.step .next = { table with
      walker := table.walker.onto table.buffer table.ahead
      ahead := table.ahead + table.slotStride }
  ends : (∀ i < ledger.now.keys.length, table.ahead.toNat ≠ i * table.slotStride.toNat) →
    ∃ fault, table.answer .next = .error fault ∧ table.step .next = table
  finder : ledger.finderPlaced = true → table.OnRecord table.finder
  walker : ledger.walkerPlaced = true → table.OnRecord table.walker

section Consistent

variable {table : Table} {ledger : Ledger} (upheld : table.Upheld ledger)
include upheld

theorem finds_of_target {operation : TableOperation} {i : Nat} {offset : UInt64}
    (target : table.target? operation = some offset)
    (position : offset.toNat = i * table.slotStride.toNat) : table.Finds operation i := by
  obtain ⟨answered, stepped⟩ := seek_succeeds upheld.formed upheld.homed target
  exact ⟨answered, offset, position, stepped⟩

theorem occupied_keys (offset : UInt64) : offset ∈ table.contents.occupied ↔
    ∃ i < ledger.now.keys.length, offset.toNat = i * table.slotStride.toNat := by
  have count : table.contents.count.toNat = ledger.now.keys.length := upheld.tracks.now.count
  rw [upheld.formed.counted.occupied, count]

theorem stored_key {i : Nat} {key : Int64} {offset : UInt64}
    (listed : ledger.now.keys[i]? = some key)
    (position : offset.toNat = i * table.slotStride.toNat) :
    table.readKey table.buffer offset = .ok key := by
  have formed := upheld.formed
  have few := (List.getElem?_eq_some_iff.mp listed).1
  have room := occupied_room formed ((occupied_keys upheld offset).mpr ⟨i, few, position⟩)
  obtain ⟨slot, known, read⟩ := upheld.tracks.now.stored i key listed
  obtain ⟨there, inside⟩ :=
    @slot_position table.layout ⟨table.buffer, offset⟩ _ slot formed.packed known room
  change (offset + slot.offset).toNat = offset.toNat + slot.offset.toNat at there
  change offset.toNat + slot.offset.toNat + slot.length.toNat ≤ table.buffer.size.toNat at inside
  rw [← there] at inside
  refine (read_key_ok known).mpr ⟨(View.in_bounds_iff _ _ _).mpr inside, ?_⟩
  rw [View.peek_eq_part _ _ _ _ inside, there, position]
  exact read

theorem next_walks {i : Nat} (few : i < ledger.now.keys.length)
    (position : table.ahead.toNat = i * table.slotStride.toNat) :
    table.answer .next = .ok .done ∧ table.step .next = { table with
      walker := table.walker.onto table.buffer table.ahead
      ahead := table.ahead + table.slotStride } := by
  have formed := upheld.formed
  have tallied : table.Tallied table.bytes table.contents ledger.now.keys := upheld.tracks.now
  have below := Nat.lt_of_lt_of_le few (keys_few formed tallied)
  have room := slot_room formed below
  rw [← position] at room
  obtain ⟨moved, bound⟩ := record_bound formed.walker upheld.homed.walker room
  refine answer_step (next_run ?_ bound)
  rw [hasMore, Bool.and_eq_true, decide_eq_true_eq, UInt64.le_iff_toNat_le,
    ahead_next formed below position, next_position formed tallied, bne_iff_ne]
  refine ⟨fun none_there => ?_, Nat.mul_le_mul_right _ few⟩
  have count := tallied.count
  rw [none_there] at count
  rw [← count] at few
  exact absurd few (Nat.not_lt_zero i)

theorem next_ends
    (past : ∀ i < ledger.now.keys.length, table.ahead.toNat ≠ i * table.slotStride.toNat) :
    ∃ fault, table.answer .next = .error fault ∧ table.step .next = table := by
  have step : Step table .next (table.answer .next) (table.step .next) :=
    step_cases upheld.formed .next
  generalize table.answer .next = answer at step ⊢
  generalize table.step .next = after at step ⊢
  cases step with
  | failed => exact ⟨_, rfl, rfl⟩
  | refused reason => exact reason.elim
  | asked asks => cases asks
  | found target => cases target
  | walked more room =>
    have occupied := ahead_occupied upheld.formed upheld.homed.ahead more room
    obtain ⟨i, few, position⟩ := (occupied_keys upheld _).mp occupied
    exact absurd position (past i few)

theorem upheld_consistent : table.Consistent ledger := by
  have formed := upheld.formed
  have tallied : table.Tallied table.bytes table.contents ledger.now.keys := upheld.tracks.now
  refine {
    count := tallied.count
    limit := keys_few formed tallied
    next := next_position formed tallied
    distinct := tallied.distinct
    occupied := occupied_keys upheld
    byKey := tallied.byKey
    stored := fun _ _ _ => stored_key upheld
    blank := tallied.blank
    keyFound := ?_
    keyMissed := ?_
    indexFound := ?_
    indexMissed := ?_
    offsetFound := ?_
    offsetMissed := ?_
    walks := fun _ => next_walks upheld
    ends := next_ends upheld
    finder := fun placed => guards_on_record (upheld.finder placed)
    walker := fun placed => guards_on_record (upheld.walker placed) }
  · intro i key listed
    obtain ⟨offset, position⟩ :=
      slot_offset formed tallied (List.getElem?_eq_some_iff.mp listed).1
    exact finds_of_target upheld ((tallied.byKey key offset).mpr ⟨i, listed, position⟩) position
  · intro key missing
    refine seek_fails rfl ?_
    cases found : table.contents.offsetByKey[key]? with
    | none => exact found
    | some offset =>
      obtain ⟨i, listed, -⟩ := (tallied.byKey key offset).mp found
      exact absurd (List.mem_of_getElem? listed) missing
  · intro i few
    obtain ⟨offset, position⟩ := slot_offset formed tallied few
    rw [← tallied.count] at few
    exact finds_of_target upheld ((offset_of_index_some formed).mpr ⟨few, position⟩) position
  · intro i past
    refine seek_fails rfl ?_
    rw [← tallied.count] at past
    exact if_pos (UInt64.le_iff_toNat_le.mpr past)
  · intro i offset few position
    have occupied := (occupied_keys upheld offset).mpr ⟨i, few, position⟩
    exact finds_of_target upheld (if_pos (Std.ExtTreeSet.contains_iff_mem.mpr occupied)) position
  · intro offset beside
    refine seek_fails rfl (if_neg ?_)
    rw [Std.ExtTreeSet.contains_iff_mem, occupied_keys upheld]
    intro shown
    obtain ⟨i, few, position⟩ := shown
    exact beside i few position

end Consistent

theorem regular_consistent {schema : Schema} {layout : Layout} {memory : Memory} {capacity : UInt64}
    {options : TableOptions} {start : Table} (built : Layout.build schema = .ok layout)
    (created : create memory (some layout) capacity options = .ok start)
    (wide : layout.extent + options.slotPadding.toNat < UInt64.size)
    (operations : List TableOperation) (regular : start.Regular {} operations) :
    (start.after operations).Consistent (start.noted {} operations) ∧
      (start.after operations).layout = layout ∧
      (start.after operations).capacity = capacity ∧
      (start.after operations).slotStride.toNat =
        layout.stride.toNat + options.slotPadding.toNat := by
  obtain ⟨packed, room⟩ := Layout.build_wide built wide
  have upheld := create_upheld created packed room
  have framed := after_framed upheld.formed operations
  obtain ⟨known, same, made⟩ := create_ok created
  cases same
  refine ⟨upheld_consistent (regular_upheld operations upheld regular),
    framed.layout.trans made.shape, framed.capacity.trans made.limit, ?_⟩
  rw [framed.slotStride, made.spacing, UInt64.toNat_add]
  exact Nat.mod_eq_of_lt room

-- The copy is taken from the table itself, from bytes that it partly overwrites.
theorem pair_run_consistent :
    ∃ start, create Memory.empty (some pairLayout) 2 {} = .ok start ∧
      let run : List TableOperation := [.begin, .append 7, .rollback, .append 1,
        .onFinder (.write 1 (.int32 5)), .appendCopy ⟨0, 0, 34, 3⟩ 4]
      start.Regular {} run ∧ (start.noted {} run).now.keys = [1, 5] ∧
      (start.after run).Consistent (start.noted {} run) := by
  obtain ⟨start, created, regular, keys⟩ : ∃ start,
      create Memory.empty (some pairLayout) 2 {} = .ok start ∧
      let run : List TableOperation := [.begin, .append 7, .rollback, .append 1,
        .onFinder (.write 1 (.int32 5)), .appendCopy ⟨0, 0, 34, 3⟩ 4]
      start.Regular {} run ∧ (start.noted {} run).now.keys = [1, 5] := by
    refine ⟨_, rfl, ⟨trivial, trivial, trivial, trivial, ⟨rfl, ?_⟩, ?_, trivial⟩, ?_⟩
    · decide +kernel
    · change 0 + 34 ≤ _
      decide +kernel
    · decide +kernel
  obtain ⟨consistent, -⟩ :=
    regular_consistent pair_built created (by decide) _ regular
  exact ⟨start, created, regular, keys, consistent⟩

end RecordStore.Table
