import RecordStore.Proofs.Lock

namespace RecordStore

section Wrap

variable {slot : FieldSlot}

theorem put_wraps (width n : Nat) :
    (decodeLE (encodeLE width n) : Int).bmod (2 ^ (8 * width)) =
      (n : Int).bmod (2 ^ (8 * width)) := by
  have bits : Nat.pow 256 width = 2 ^ (8 * width) := by
    rw [Nat.pow_mul]
    rfl
  rw [decode_encode_le, bits, Int.natCast_mod]
  exact Int.emod_bmod _ _

theorem integer_width (sized : slot.Sized) (integer : slot.type.isInteger = true) :
    slot.type = .int32 ∧ slot.length = 4 ∨ slot.type = .int64 ∧ slot.length = 8 ∨
      slot.type = .int16 ∧ slot.length = 2 := by
  obtain ⟨maxLength, found⟩ := sized
  cases type : slot.type with
  | int32 =>
    rw [type] at found
    exact .inl ⟨rfl, (Except.ok.inj found).symm⟩
  | int64 =>
    rw [type] at found
    exact .inr (.inl ⟨rfl, (Except.ok.inj found).symm⟩)
  | int16 =>
    rw [type] at found
    exact .inr (.inr ⟨rfl, (Except.ok.inj found).symm⟩)
  | bool | char16 | fixedString | varString =>
    rw [type] at integer
    cases integer

theorem signed_wraps (sized : slot.Sized) (integer : slot.type.isInteger = true) (bytes : Bytes) :
    ∃ n, slot.type.signed? bytes = some n ∧
      n.toInt = (decodeLE bytes : Int).bmod (2 ^ (8 * slot.length.toNat)) := by
  rcases integer_width sized integer with ⟨type, width⟩ | ⟨type, width⟩ | ⟨type, width⟩
  · rw [type, width]
    exact ⟨_, rfl, (Int32.toInt_toInt64 _).trans Int32.toInt_ofNat'⟩
  · rw [type, width]
    exact ⟨_, rfl, Int64.toInt_ofNat'⟩
  · rw [type, width]
    exact ⟨_, rfl, (Int16.toInt_toInt64 _).trans Int16.toInt_ofNat'⟩

theorem cut_wraps (sized : slot.Sized) (integer : slot.type.isInteger = true) (v : Int64) :
    ∃ value n, Value.ofInteger? slot.type v = some value ∧ value.stored.integer? = some n ∧
      n.toInt = v.toInt.bmod (2 ^ (8 * slot.length.toNat)) := by
  rcases integer_width sized integer with ⟨type, width⟩ | ⟨type, width⟩ | ⟨type, width⟩
  · rw [type, width]
    exact ⟨_, _, rfl, rfl, (Int32.toInt_toInt64 _).trans (Int64.toInt_toInt32 v)⟩
  · rw [type, width]
    exact ⟨_, _, rfl, rfl, (Int64.toInt_bmod_size v).symm⟩
  · rw [type, width]
    exact ⟨_, _, rfl, rfl, (Int16.toInt_toInt64 _).trans (Int64.toInt_toInt16 v)⟩

theorem signed_next (sized : slot.Sized) (integer : slot.type.isInteger = true) {bytes : Bytes}
    {held : Int64} (holds : slot.type.signed? bytes = some held) :
    ∃ n, slot.type.signed? (encodeLE slot.length.toNat (decodeLE bytes + 1)) = some n ∧
      n.toInt = (held.toInt + 1).bmod (2 ^ (8 * slot.length.toNat)) := by
  obtain ⟨same, found, wrapped⟩ := signed_wraps sized integer bytes
  cases found.symm.trans holds
  obtain ⟨n, next, wraps⟩ :=
    signed_wraps sized integer (encodeLE slot.length.toNat (decodeLE bytes + 1))
  refine ⟨n, next, ?_⟩
  rw [wraps, put_wraps, wrapped, Int.bmod_add_bmod]
  rfl

end Wrap

namespace Cursor

variable {layout : Layout} {memory : Memory} {cursor : Cursor} {place : Place} {id : Nat}
  {slot : FieldSlot}

-- Both ways to count put the next number into the bytes and answer it, so it does not matter which
-- of them the view allows.
theorem increment_adds {buffer : View} {offset length : UInt64} (fits : buffer.Fits memory)
    (writable : buffer.isMutable = true) (room : buffer.inBounds offset length = true) :
    increment buffer memory offset length =
      .ok (encodeLE length.toNat (decodeLE (buffer.peek memory offset length) + 1),
        buffer.poke memory offset
          (encodeLE length.toNat (decodeLE (buffer.peek memory offset length) + 1))) := by
  have width : length.toNat.toUInt64 = length := UInt64.ofNat_toNat
  rw [increment]
  dsimp only
  cases atomic : buffer.addsAtomically offset length with
  | true =>
    rw [if_pos rfl, View.addAtomic, width, if_pos atomic]
    rfl
  | false =>
    rw [if_neg Bool.false_ne_true]
    have inside := (View.in_bounds_iff _ _ _).mp room
    have whole := encode_le_length length.toNat (decodeLE (buffer.peek memory offset length) + 1)
    have found : buffer.loadNat memory offset length.toNat =
        .ok (decodeLE (buffer.peek memory offset length)) := by
      rw [View.loadNat, width, View.load_ok.mpr ⟨room, rfl⟩]
      rfl
    refine except_bind_ok.mpr ⟨_, found, ?_⟩
    refine except_bind_ok.mpr ⟨_, View.store_ok.mpr ⟨writable, ?_, rfl⟩, ?_⟩
    · rw [whole, width]
      exact room
    · refine except_bind_ok.mpr ⟨_, View.load_ok.mpr ⟨room, ?_⟩, rfl⟩
      exact View.peek_poke _ _ _ _ fits inside whole

theorem advance_adds (packed : layout.Packed) (stands : cursor.On layout memory place)
    (counts : cursor.Counts id place slot) {held : Int64}
    (holds : slot.type.signed? (place.contentOf memory slot) = some held) :
    ∃ n, n.toInt = (held.toInt + 1).bmod (2 ^ (8 * slot.length.toNat)) ∧
      slot.type.signed?
        (encodeLE slot.length.toNat (decodeLE (place.contentOf memory slot) + 1)) = some n ∧
      cursor.advance memory id = .ok (n, place.buffer.poke memory (place.ofSlot slot)
        (encodeLE slot.length.toNat (decodeLE (place.contentOf memory slot) + 1))) := by
  have known : layout.fields[id]? = some slot := by rw [← stands.shape, counts.field]
  obtain ⟨integer, -⟩ := packed.counter id slot known counts.sequence
  obtain ⟨room, same⟩ := View.load_ok.mp (load_content packed known stands.holds memory)
  obtain ⟨n, signed, next⟩ := signed_next (packed.sized id slot known) integer holds
  refine ⟨n, next, signed, ?_⟩
  have added := increment_adds stands.fits counts.writable room
  rw [same] at added
  rw [advance]
  refine except_bind_ok.mpr ⟨_, check_sequence_of_counts counts, ?_⟩
  dsimp only
  rw [integer, if_neg (by decide)]
  refine except_bind_ok.mpr ⟨_, added, ?_⟩
  dsimp only
  rw [signed]
  rfl

end Cursor

theorem Value.decode_type {type : FieldType} {bytes : Bytes} {value : Value}
    (decoded : decode? type bytes = some value) : value.type = type := by
  cases type with
  | varString => cases decoded
  | _ =>
    cases decoded
    rfl

namespace Session

variable {σ : Type}

structure Puts (owner : IndexOwner σ) (place : Place) (id : Nat) (slot : FieldSlot)
    (operation : CursorOperation) (answer : CursorAnswer) (n : Int64) (before after : Session σ) :
    Prop where
  ran : operation.run owner before = .ok answer after
  kept : after = { before with memory := after.memory }
  read : ∃ value : Value, value.type = slot.type ∧ value.integer? = some n ∧
    (CursorOperation.read id).run owner after = .ok (.value value) after
  elsewhere : ∀ region pos : Nat, region ≠ place.buffer.region ∨
    pos < place.buffer.start + (place.offset.toNat + slot.offset.toNat) ∨
    place.buffer.start + (place.offset.toNat + slot.offset.toNat) + slot.length.toNat ≤ pos →
      (after.memory.region region)[pos]? = (before.memory.region region)[pos]?

-- Everything that can become of a cursor since the sequence under it was set to a number and then
-- advanced some times. In between anything may be done by anybody, if the sequence keeps its bytes
-- and the cursor, in the end, its place.
inductive Counted (owner : IndexOwner σ) (place : Place) (id : Nat) (slot : FieldSlot) (v : Int64)
    (start : Session σ) : Nat → Session σ → Prop
  | set {answer after}
      (ran : (CursorOperation.setSequence id v).run owner start = .ok answer after) :
      Counted owner place id slot v start 0 after
  | advanced {k session answer after} (counted : Counted owner place id slot v start k session)
      (ran : (CursorOperation.advance id).run owner session = .ok answer after) :
      Counted owner place id slot v start (k + 1) after
  | beside {k} {session after : Session σ} (counted : Counted owner place id slot v start k session)
      (layout : after.cursor.layout = session.cursor.layout)
      (stays : after.cursor.place = session.cursor.place)
      (unlocked : (slot.attrs.key && after.cursor.keyLocked) = false)
      (grows : session.memory.Grows after.memory)
      (kept : place.contentOf after.memory slot = place.contentOf session.memory slot) :
      Counted owner place id slot v start k after

structure Counting (layout : Layout) (place : Place) (slot : FieldSlot) (v : Int64) (k : Nat)
    (session : Session σ) : Prop where
  stands : session.cursor.On layout session.memory place
  unlocked : (slot.attrs.key && session.cursor.keyLocked) = false
  holds : ∃ held : Int64, slot.type.signed? (place.contentOf session.memory slot) = some held ∧
    held.toInt = (v.toInt + k).bmod (2 ^ (8 * slot.length.toNat))

section Counting

variable {owner : IndexOwner σ} {layout : Layout} {place : Place} {before after start : Session σ}
  {operation : CursorOperation} {answer : CursorAnswer} {id : Nat} {slot : FieldSlot} {v : Int64}
  {k : Nat} (packed : layout.Packed) (known : layout.fields[id]? = some slot)
include packed known

theorem poked_content (stands : before.cursor.On layout before.memory place) {fresh : Bytes}
    (whole : fresh.length = slot.length.toNat) :
    place.contentOf (place.buffer.poke before.memory (place.ofSlot slot) fresh) slot = fresh := by
  obtain ⟨position, inside⟩ := slot_position packed known stands.holds
  rw [← position] at inside
  rw [← (View.load_ok.mp (load_content packed known stands.holds _)).2]
  exact View.peek_poke _ _ _ _ stands.fits inside whole

theorem poked_puts (stands : before.cursor.On layout before.memory place) {fresh : Bytes} {n : Int64}
    (whole : fresh.length = slot.length.toNat) (signed : slot.type.signed? fresh = some n)
    (ran : operation.run owner before = .ok answer
      { before with memory := place.buffer.poke before.memory (place.ofSlot slot) fresh }) :
    before.Puts owner place id slot operation answer n
      { before with memory := place.buffer.poke before.memory (place.ofSlot slot) fresh } := by
  obtain ⟨position, -⟩ := slot_position packed known stands.holds
  obtain ⟨value, decoded, same⟩ := Option.bind_eq_some_iff.mp signed
  refine ⟨ran, rfl, ⟨value, Value.decode_type decoded, same, ?_⟩, ?_⟩
  · have column : before.cursor.layout.fields[id]? = some slot := by rw [stands.shape, known]
    let after : Session σ :=
      { before with memory := place.buffer.poke before.memory (place.ofSlot slot) fresh }
    have reads : after.cursor.read after.memory id = .ok value := by
      rw [Cursor.read_placed stands.placed column, read_slot_ok packed known stands.holds,
        poked_content packed known stands whole]
      exact decoded
    refine bind_ok ?_
    rw [Session.ask, get_bind, reads]
    rfl
  · intro region pos apart
    apply View.poke_elsewhere
    rw [position, whole]
    exact apart

variable (sequence : slot.attrs.sequence = true) (writable : place.buffer.isMutable = true)
include sequence writable

omit packed in
theorem stands_counts (stands : before.cursor.On layout before.memory place)
    (unlocked : (slot.attrs.key && before.cursor.keyLocked) = false) :
    before.cursor.Counts id place slot :=
  ⟨stands.placed, by rw [stands.shape, known], sequence, writable, unlocked⟩

theorem set_puts (stands : before.cursor.On layout before.memory place)
    (unlocked : (slot.attrs.key && before.cursor.keyLocked) = false) (v : Int64) :
    ∃ n after, n.toInt = v.toInt.bmod (2 ^ (8 * slot.length.toNat)) ∧
      before.Puts owner place id slot (.setSequence id v) .done n after ∧
      after.Counting layout place slot v 0 := by
  have counts := stands_counts known sequence writable stands unlocked
  have sized := packed.sized id slot known
  obtain ⟨integer, -⟩ := packed.counter id slot known sequence
  obtain ⟨value, n, cut, held, wraps⟩ := cut_wraps sized integer v
  obtain ⟨typed, short⟩ := of_integer_typed cut
  have whole := FieldSlot.encode_length sized typed (short slot.length)
  have signed : slot.type.signed? (value.encode slot.length.toNat) = some n := by
    rw [FieldType.signed?, ← typed, Value.decode_encode]
    exact held
  obtain ⟨memory, put⟩ := write_slot_runs packed known stands.holds writable typed
    (short slot.length) before.memory
  have set : before.cursor.setSequence before.memory id v = .ok memory :=
    Cursor.set_sequence_ok.mpr ⟨place, slot, value, counts, cut, put⟩
  obtain ⟨-, -, rfl⟩ := View.store_ok.mp put
  have ran : Session.setSequence id v before = .ok ⟨⟩ { before with
      memory := place.buffer.poke before.memory (place.ofSlot slot)
        (value.encode slot.length.toNat) } := by
    rw [Session.setSequence, get_bind, attempt_ok set]
    rfl
  refine ⟨n, _, wraps, poked_puts packed known stands whole signed (bind_ok ran), ?_, unlocked, n,
    ?_, ?_⟩
  · exact on_alike stands (View.poke_alike _ _ _ _)
  · rw [poked_content packed known stands whole]
    exact signed
  · rw [wraps, Int.natCast_zero, Int.add_zero]

theorem advance_puts (counting : before.Counting layout place slot v k) :
    ∃ n after, n.toInt = (v.toInt + (k + 1 : Nat)).bmod (2 ^ (8 * slot.length.toNat)) ∧
      before.Puts owner place id slot (.advance id) (.number n) n after ∧
      after.Counting layout place slot v (k + 1) := by
  obtain ⟨stands, unlocked, held, holds, wrapped⟩ := counting
  have counts := stands_counts known sequence writable stands unlocked
  obtain ⟨n, next, signed, advanced⟩ := Cursor.advance_adds packed stands counts holds
  have whole := encode_le_length slot.length.toNat
    (decodeLE (place.contentOf before.memory slot) + 1)
  have wraps : n.toInt = (v.toInt + (k + 1 : Nat)).bmod (2 ^ (8 * slot.length.toNat)) := by
    rw [next, wrapped, Int.bmod_add_bmod, Int.natCast_succ, Int.add_assoc]
  have ran : Session.advance id before = .ok n { before with
      memory := place.buffer.poke before.memory (place.ofSlot slot)
        (encodeLE slot.length.toNat (decodeLE (place.contentOf before.memory slot) + 1)) } := by
    rw [Session.advance, get_bind, attempt_ok advanced]
    rfl
  refine ⟨n, _, wraps, poked_puts packed known stands whole signed (bind_ok ran), ?_, unlocked, n,
    ?_, wraps⟩
  · exact on_alike stands (View.poke_alike _ _ _ _)
  · rw [poked_content packed known stands whole]
    exact signed

theorem counted_counting (stands : start.cursor.On layout start.memory place)
    (unlocked : (slot.attrs.key && start.cursor.keyLocked) = false)
    (counted : Counted owner place id slot v start k after) :
    after.Counting layout place slot v k := by
  induction counted with
  | set ran =>
    obtain ⟨n, after, -, puts, counting⟩ :=
      set_puts packed known sequence writable stands unlocked v
    cases puts.ran.symm.trans ran
    exact counting
  | advanced _ ran ih =>
    obtain ⟨n, after, -, puts, counting⟩ := advance_puts packed known sequence writable ih
    cases puts.ran.symm.trans ran
    exact counting
  | beside _ shape stays unlocked grows kept ih =>
    obtain ⟨stands, -, holds⟩ := ih
    refine ⟨⟨shape.trans stands.shape, stays.trans stands.placed, stands.holds,
      Nat.le_trans stands.fits (grows _)⟩, unlocked, ?_⟩
    rw [kept]
    exact holds

end Counting

end Session

def Cursor.through (cursor : Cursor) (caps : Capabilities) : Cursor :=
  { cursor with place := cursor.place.map fun place => { place with
      buffer := { place.buffer with caps } } }

theorem through_placed {cursor : Cursor} {place : Place} (placed : cursor.place = some place)
    (caps : Capabilities) : (cursor.through caps).place =
      some { place with buffer := { place.buffer with caps } } := by
  rw [Cursor.through, placed]
  rfl

theorem through_advance {layout : Layout} (packed : layout.Packed) {cursor : Cursor}
    {memory : Memory} {place : Place} (stands : cursor.On layout memory place) {id : Nat}
    {slot : FieldSlot} (counts : cursor.Counts id place slot) {caps : Capabilities}
    (writable : View.isMutable { place.buffer with caps } = true) :
    (cursor.through caps).advance memory id = cursor.advance memory id := by
  have known : layout.fields[id]? = some slot := by rw [← stands.shape, counts.field]
  obtain ⟨integer, -⟩ := packed.counter id slot known counts.sequence
  obtain ⟨held, holds, -⟩ :=
    signed_wraps (packed.sized id slot known) integer (place.contentOf memory slot)
  let other : Place := { place with buffer := { place.buffer with caps } }
  have placed : (cursor.through caps).place = some other := through_placed counts.placed caps
  have likewise : (cursor.through caps).On layout memory other :=
    ⟨stands.shape, placed, stands.holds, stands.fits⟩
  obtain ⟨n, -, signed, advanced⟩ := Cursor.advance_adds packed stands counts holds
  obtain ⟨same, -, again, also⟩ := Cursor.advance_adds packed likewise
    ⟨placed, counts.field, counts.sequence, writable, counts.unlocked⟩ holds
  have answers : n = same := Option.some.inj (signed.symm.trans again)
  rw [advanced, also, answers]
  rfl

theorem sequence_counts {schema : Schema} {layout : Layout}
    (built : Layout.build schema = .ok layout) (narrow : layout.extent < UInt64.size)
    {σ : Type} {owner : IndexOwner σ} {reports : Bool} {start : Session σ}
    (reached : start.Reached owner layout reports) {place : Place}
    (bound : start.cursor.place = some place) (writable : place.buffer.isMutable = true) {id : Nat}
    {slot : FieldSlot} (known : layout.fields[id]? = some slot)
    (sequence : slot.attrs.sequence = true)
    (unlocked : (slot.attrs.key && start.cursor.keyLocked) = false) (v : Int64) :
    (∃ n after, n.toInt = v.toInt.bmod (2 ^ (8 * slot.length.toNat)) ∧
      start.Puts owner place id slot (.setSequence id v) .done n after) ∧
    (∀ (k : Nat) (session : Session σ), Session.Counted owner place id slot v start k session →
      ∃ n after, n.toInt = (v.toInt + (k + 1 : Nat)).bmod (2 ^ (8 * slot.length.toNat)) ∧
        session.Puts owner place id slot (.advance id) (.number n) n after) ∧
    ∀ (memory : Memory) (caps : Capabilities), place.buffer.Fits memory →
      View.isMutable { place.buffer with caps } = true →
        (start.cursor.through caps).advance memory id = start.cursor.advance memory id := by
  obtain ⟨packed, -⟩ := Layout.build_packed built narrow
  have stands := (reached_grounded reached).stands place bound
  refine ⟨?_, ?_, ?_⟩
  · obtain ⟨n, after, wraps, puts, -⟩ :=
      Session.set_puts packed known sequence writable stands unlocked v
    exact ⟨n, after, wraps, puts⟩
  · intro k session counted
    have counting := Session.counted_counting packed known sequence writable stands unlocked counted
    obtain ⟨n, after, wraps, puts, -⟩ :=
      Session.advance_puts packed known sequence writable counting
    exact ⟨n, after, wraps, puts⟩
  · intro memory caps fits allowed
    exact through_advance packed ⟨stands.shape, stands.placed, stands.holds, fits⟩
      (Session.stands_counts known sequence writable stands unlocked) allowed

-- The turn of the label lies where it can be counted atomically. It is set to more than it can
-- hold, and wraps around when it is advanced; so does the greatest turn, also through a view that is
-- only mutable.
theorem label_turn_counts :
    labelSession.Reached indexOwner Layout.labelLayout true ∧
      let full := labelPlace.buffer.poke labelMemory 25 [255, 127]
      (labelCursor.advance full 3).map Prod.fst = .ok (-32768) ∧
      (labelCursor.through 1).advance full 3 = labelCursor.advance full 3 ∧
      ∃ slot session after, Layout.labelLayout.fields[3]? = some slot ∧
        labelPlace.buffer.addsAtomically (labelPlace.ofSlot slot) slot.length = true ∧
        Session.Counted indexOwner labelPlace 3 slot 98303 labelSession 0 session ∧
        session.Puts indexOwner labelPlace 3 slot (.advance 3) (.number (-32768)) (-32768) after := by
  let slot : FieldSlot :=
    { name := "turn", type := .int16, offset := 22, length := 2, attrs := { sequence := true } }
  obtain ⟨⟨_, session, -, set⟩, counts, same⟩ := @sequence_counts _ _ Layout.label_built (by decide) _
    indexOwner _ _ label_reached labelPlace rfl rfl 3 slot rfl rfl rfl 98303
  have counted : Session.Counted indexOwner labelPlace 3 slot 98303 labelSession 0 session :=
    .set set.ran
  obtain ⟨n, after, wraps, puts⟩ := counts 0 session counted
  have wrapped : n = -32768 := Int64.toInt_inj.mp (wraps.trans (by decide))
  rw [wrapped] at puts
  have fits : labelPlace.buffer.Fits labelMemory := by
    rw [View.Fits]
    decide
  exact ⟨label_reached, by decide +kernel,
    same _ 1 (View.fits_alike fits (View.poke_alike _ _ _ _)) (by decide), slot, session, after, rfl,
    by decide, counted, puts⟩

end RecordStore
