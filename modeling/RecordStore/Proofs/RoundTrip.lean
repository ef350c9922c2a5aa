import Mathlib.Data.List.TakeWhile
import RecordStore.Proofs.Patch
import RecordStore.Proofs.Validity

namespace RecordStore

structure Trims (text rest : Bytes) : Prop where
  split : ∃ front back, text = front ++ rest ++ back ∧
    (∀ b ∈ front, b.toNat ≤ 32) ∧ ∀ b ∈ back, b.toNat ≤ 32
  first : ∀ b, rest.head? = some b → 32 < b.toNat
  last : ∀ b, rest.getLast? = some b → 32 < b.toNat

theorem blank_iff (b : UInt8) : isBlank b = true ↔ b.toNat ≤ 32 := by
  rw [isBlank, decide_eq_true_iff, UInt8.le_iff_toNat_le]
  rfl

theorem head_shown {text : Bytes} {b : UInt8} (head : (text.dropWhile isBlank).head? = some b) :
    32 < b.toNat := by
  have shown := List.head?_dropWhile_not isBlank text
  rw [head] at shown
  rw [← Nat.not_le, ← blank_iff]
  simpa using shown

theorem trim_trims (text : Bytes) : Trims text (trim text) := by
  have blanks (text : Bytes) : ∀ b ∈ text.takeWhile isBlank, b.toNat ≤ 32 := fun b member =>
    (blank_iff b).mp (List.mem_takeWhile_imp member)
  have body : text.dropWhile isBlank =
      trim text ++ ((text.dropWhile isBlank).reverse.takeWhile isBlank).reverse := by
    rw [trim, ← List.reverse_append, List.takeWhile_append_dropWhile, List.reverse_reverse]
  refine ⟨⟨text.takeWhile isBlank, ((text.dropWhile isBlank).reverse.takeWhile isBlank).reverse,
    ?_, blanks text, ?_⟩, ?_, ?_⟩
  · rw [List.append_assoc, ← body, List.takeWhile_append_dropWhile]
  · intro b member
    exact blanks _ b (List.mem_reverse.mp member)
  · intro b head
    have shown : (text.dropWhile isBlank).head? = some b := by
      rw [body, List.head?_append, head]
      rfl
    exact head_shown shown
  · intro b last
    rw [trim, List.getLast?_reverse] at last
    exact head_shown last

def Value.ReadsAs (value held : Value) : Prop :=
  match value with
  | .text bytes => ∃ rest, held = .text rest ∧
      Trims (bytes.map fun b => if 127 < b.toNat then '?'.toUInt8 else b) rest
  | other => held = other

theorem stored_reads (value : Value) : value.ReadsAs value.stored := by
  cases value with
  | text bytes =>
    have ascii : (fun b : UInt8 => if 127 < b.toNat then '?'.toUInt8 else b) = asciiByte := rfl
    refine ⟨storedText bytes, rfl, ?_⟩
    rw [ascii]
    exact trim_trims _
  | int32 | int64 | int16 | bool | char16 => rfl

inductive FieldWrite where
  | plain (value : Value)
  | padded (text : Bytes)

namespace FieldWrite

def value : FieldWrite → Value
  | plain value => value
  | padded text => .text text

def run {σ : Type} (owner : IndexOwner σ) (cursor : Cursor) (memory : Memory) (state : σ)
    (id : Nat) : FieldWrite → Except Fault (Written σ)
  | plain value => cursor.write owner memory state id value
  | padded text => cursor.writePadded owner memory state id text

def filled (slot : FieldSlot) : FieldWrite → Value
  | plain value => value
  | padded text => Cursor.padded text slot

theorem padded_stored (text : Bytes) (slot : FieldSlot) :
    (Cursor.padded text slot).stored = (Value.text text).stored := by
  have space : asciiByte 32 = 32 := rfl
  rw [Cursor.padded, Value.stored, Value.stored, storedText, storedText, List.map_append,
    List.map_replicate, space, Value.trim_padded _ _ 32 rfl]

theorem filled_stored (write : FieldWrite) (slot : FieldSlot) :
    (write.filled slot).stored = write.value.stored := by
  cases write with
  | plain value => rfl
  | padded text => exact padded_stored text slot

end FieldWrite

structure Cursor.On (cursor : Cursor) (layout : Layout) (memory : Memory) (place : Place) :
    Prop where
  shape : cursor.layout = layout
  placed : cursor.place = some place
  holds : place.Holds layout
  fits : place.buffer.Fits memory

theorem bind_on {layout : Layout} {memory : Memory} {cursor after : Cursor} {buffer : View}
    {offset : UInt64} (shape : cursor.layout = layout) (fits : buffer.Fits memory)
    (bound : cursor.bind buffer offset = .ok after) : after.On layout memory ⟨buffer, offset⟩ := by
  obtain ⟨room, -, rfl⟩ := Cursor.move_ok.mp bound
  rw [shape] at room
  exact ⟨shape, rfl, room, fits⟩

theorem on_alike {layout : Layout} {memory after : Memory} {cursor : Cursor} {place : Place}
    (stands : cursor.On layout memory place) (alike : memory.Alike after) :
    cursor.On layout after place :=
  { stands with fits := View.fits_alike stands.fits alike }

theorem load_outside {view : View} {before after : Memory} {pos length : Nat}
    (outside : Outside (view.bytes before) (view.bytes after) pos length) {offset short : UInt64}
    (apart : offset.toNat + short.toNat ≤ pos ∨ pos + length ≤ offset.toNat) :
    view.load after offset short = view.load before offset short := by
  rw [View.load, View.load]
  by_cases room : view.inBounds offset short = true
  · have inside := (View.in_bounds_iff view offset short).mp room
    rw [View.peek_eq_part _ _ _ _ inside, View.peek_eq_part _ _ _ _ inside,
      part_outside outside _ _ apart]
  · rw [View.checkBounds, if_neg room]
    rfl

section Stored

variable {layout : Layout} {memory after : Memory} {cursor : Cursor} {place : Place} {id : Nat}
  {slot : FieldSlot}

structure Stored (memory after : Memory) (place : Place) (slot : FieldSlot) (fresh : Bytes) :
    Prop where
  alike : memory.Alike after
  whole : fresh.length = slot.length.toNat
  bytes : place.buffer.bytes after = splice (place.buffer.bytes memory)
    (place.offset.toNat + slot.offset.toNat) fresh

theorem stored_room (packed : layout.Packed) (stands : cursor.On layout memory place)
    (known : layout.fields[id]? = some slot) :
    place.offset.toNat + slot.offset.toNat + slot.length.toNat ≤
      (place.buffer.bytes memory).length := by
  rw [View.bytes_length _ _ stands.fits]
  exact (slot_position packed known stands.holds).2

theorem stored_outside (packed : layout.Packed) (stands : cursor.On layout memory place)
    (known : layout.fields[id]? = some slot) {fresh : Bytes}
    (stored : Stored memory after place slot fresh) :
    Outside (place.buffer.bytes memory) (place.buffer.bytes after)
      (place.offset.toNat + slot.offset.toNat) slot.length.toNat := by
  rw [stored.bytes]
  exact splice_outside_first _ _ _ _ (by rw [stored.whole])
    (stored_room packed stands known)

theorem header_kept (packed : layout.Packed) (known : layout.fields[id]? = some slot)
    (outside : Outside (place.buffer.bytes memory) (place.buffer.bytes after)
      (place.offset.toNat + slot.offset.toNat) slot.length.toNat) :
    Header.load place.buffer after place.offset = Header.load place.buffer memory place.offset := by
  have behind := packed.behind id slot known
  have eight : Header.length.toNat = 8 := rfl
  rw [Header.load, Header.load, load_outside outside (.inl (by rw [eight]; omega))]

theorem read_kept (packed : layout.Packed) (stands : cursor.On layout memory place)
    (known : layout.fields[id]? = some slot)
    (outside : Outside (place.buffer.bytes memory) (place.buffer.bytes after)
      (place.offset.toNat + slot.offset.toNat) slot.length.toNat)
    {other : Nat} (differ : other ≠ id) : cursor.read after other = cursor.read memory other := by
  cases found : layout.fields[other]? with
  | none =>
    have missing : cursor.layout.field other = .error .noSuchField := by
      rw [stands.shape, Layout.field, found]
    rw [Cursor.read, Cursor.read, Cursor.require_place_ok.mpr stands.placed, missing]
    rfl
  | some beside =>
    have field : cursor.layout.fields[other]? = some beside := by rw [stands.shape, found]
    have position := (slot_position packed found stands.holds).1
    rw [Cursor.read_placed stands.placed field, Cursor.read_placed stands.placed field,
      Place.readSlot, Place.readSlot, load_outside outside]
    rw [position]
    rcases Nat.lt_or_gt_of_ne differ with before | behind
    · have apart := packed.apart other id beside slot before found known
      omega
    · have apart := packed.apart id other slot beside behind known found
      omega

theorem read_stored (packed : layout.Packed) (stands : cursor.On layout memory place)
    (known : layout.fields[id]? = some slot) {value : Value} (type : value.type = slot.type)
    (stored : Stored memory after place slot (value.encode slot.length.toNat)) :
    cursor.read after id = .ok value.stored := by
  have field : cursor.layout.fields[id]? = some slot := by rw [stands.shape, known]
  rw [Cursor.read_placed stands.placed field,
    read_slot_ok packed known stands.holds, Place.contentOf, stored.bytes,
    content_same stored.whole (stored_room packed stands known), ← type]
  exact Value.decode_encode value slot.length.toNat

theorem splice_comm (bytes : Bytes) {low high : Nat} {one other : Bytes}
    (apart : low + one.length ≤ high) (inside : high + other.length ≤ bytes.length) :
    splice (splice bytes low one) high other = splice (splice bytes high other) low one := by
  have lowRoom : low + one.length ≤ bytes.length := by omega
  apply List.ext_getElem?
  intro i
  rw [splice_get _ _ _ _ (by rw [splice_length _ _ _ lowRoom]; exact inside),
    splice_get _ _ _ _ lowRoom,
    splice_get _ _ _ _ (by rw [splice_length _ _ _ inside]; exact lowRoom),
    splice_get _ _ _ _ inside]
  by_cases inOther : high ≤ i ∧ i < high + other.length
  · have outOne : ¬ (low ≤ i ∧ i < low + one.length) := by omega
    rw [if_pos inOther, if_neg outOne, if_pos inOther]
  · rw [if_neg inOther, if_neg inOther]

theorem stored_comm (packed : layout.Packed) (stands : cursor.On layout memory place)
    {other : Nat} {beside : FieldSlot} (known : layout.fields[id]? = some slot)
    (second : layout.fields[other]? = some beside) (differ : id ≠ other)
    {fresh later : Bytes} {mid side last : Memory}
    (first : Stored memory mid place slot fresh) (next : Stored mid after place beside later)
    (swapped : Stored memory side place beside later) (back : Stored side last place slot fresh) :
    place.buffer.bytes after = place.buffer.bytes last := by
  have room := stored_room packed stands known
  have besideRoom := stored_room packed stands second
  have whole := first.whole
  have besideWhole := next.whole
  rw [next.bytes, first.bytes, back.bytes, swapped.bytes]
  rcases Nat.lt_or_gt_of_ne differ with before | behind
  · have apart := packed.apart id other slot beside before known second
    exact splice_comm _ (by omega) (by omega)
  · have apart := packed.apart other id beside slot behind second known
    exact (splice_comm _ (by omega) (by omega)).symm

end Stored

namespace FieldWrite

variable {σ : Type} {owner : IndexOwner σ} {state : σ} {layout : Layout} {memory : Memory}
  {cursor : Cursor} {place : Place} {id : Nat} {slot : FieldSlot} {write : FieldWrite}

theorem text_short {text : Bytes} {length : UInt64}
    (short : (Value.text text).overflow? length = none) : text.length ≤ length.toNat := by
  rw [Value.overflow?] at short
  split at short
  · cases short
  · omega

theorem filled_accepted (accepts : cursor.Accepts id write.value place slot) :
    cursor.Accepts id (write.filled slot) place slot := by
  cases write with
  | plain value => exact accepts
  | padded text =>
    have short := text_short accepts.short
    refine { accepts with type := accepts.type, short := ?_ }
    rw [filled, Cursor.padded, Value.overflow?, List.length_append, List.length_replicate,
      if_neg (by omega)]

theorem run_filled (accepts : cursor.Accepts id write.value place slot) :
    write.run owner cursor memory state id =
      cursor.write owner memory state id (write.filled slot) := by
  cases write with
  | plain value => rfl
  | padded text =>
    have type : slot.type = .fixedString := accepts.type.symm
    have short := Nat.not_lt.mpr (text_short accepts.short)
    have typed : cursor.typedField .fixedString id = .ok slot := by
      rw [Cursor.typedField]
      refine except_bind_ok.mpr ⟨slot, field_ok.mpr accepts.field, ?_⟩
      rw [if_pos type]
      rfl
    rw [run, Cursor.writePadded, typed]
    exact if_neg short

theorem run_decided (accepts : cursor.Accepts id write.value place slot) {written : Written σ}
    (ran : write.run owner cursor memory state id = .ok written) :
    written.accepted = (Cursor.consult owner cursor memory state id slot write.value).1 := by
  rw [run_filled accepts] at ran
  obtain ⟨found, field, same, decided, -⟩ := Cursor.write_ok ran
  cases same.field.symm.trans accepts.field
  rw [← decided, Cursor.consult, Cursor.consult, filled_stored]

theorem run_puts (packed : layout.Packed) (stands : cursor.On layout memory place)
    (accepts : cursor.Accepts id write.value place slot) :
    ∃ written, write.run owner cursor memory state id = .ok written ∧
      (cursor.reports = false ∨ slot.attrs.unique = false → written.accepted = true) ∧
      (written.accepted = false → written.memory = memory) ∧
      (written.accepted = true → Stored memory written.memory place slot
        ((write.filled slot).encode slot.length.toNat)) := by
  have filled := filled_accepted accepts
  have known : layout.fields[id]? = some slot := by rw [← stands.shape, accepts.field]
  obtain ⟨after, put⟩ := write_slot_runs packed known stands.holds filled.writable filled.type
    filled.short memory
  obtain ⟨written, ran⟩ := @Cursor.write_runs _ owner _ _ state _ _ _ _ _ filled put
  have wrote := (run_filled accepts).trans ran
  refine ⟨written, wrote, ?_⟩
  obtain ⟨found, field, same, -, refused, taken⟩ := Cursor.write_ok ran
  cases same.placed.symm.trans filled.placed
  cases same.field.symm.trans filled.field
  refine ⟨fun unasked => ?_, fun no => (refused no).1, fun yes => ?_⟩
  · rw [run_decided accepts wrote, Cursor.consult, if_neg]
    rcases unasked with silent | common
    · simp [silent]
    · simp [common]
  obtain ⟨alike, bytes⟩ := write_slot_ok packed known stands.holds stands.fits filled.type
    filled.short (taken yes).1
  exact ⟨alike, FieldSlot.encode_length (packed.sized id slot known) filled.type filled.short, bytes⟩

def Leaves (write : FieldWrite) (owner : IndexOwner σ) (cursor : Cursor) (memory : Memory)
    (id : Nat) (after : Memory) : Prop :=
  ∃ state written, write.run owner cursor memory state id = .ok written ∧
    written.accepted = true ∧ written.memory = after

theorem leaves_stored (packed : layout.Packed) (stands : cursor.On layout memory place)
    (accepts : cursor.Accepts id write.value place slot) {after : Memory}
    (leaves : write.Leaves owner cursor memory id after) :
    Stored memory after place slot ((write.filled slot).encode slot.length.toNat) := by
  obtain ⟨state, written, ran, yes, rfl⟩ := leaves
  obtain ⟨same, again, -, -, stored⟩ := @run_puts _ owner state _ _ _ _ _ _ _ packed stands accepts
  cases ran.symm.trans again
  exact stored yes

end FieldWrite

theorem write_round_trip {schema : Schema} {layout : Layout}
    (built : Layout.build schema = .ok layout) (narrow : layout.extent < UInt64.size)
    {cursor : Cursor} {memory : Memory} {place : Place} (stands : cursor.On layout memory place)
    {σ : Type} (owner : IndexOwner σ) :
    (∀ (state : σ) (id : Nat) (write : FieldWrite) (slot : FieldSlot),
      cursor.Accepts id write.value place slot →
      ∃ written, write.run owner cursor memory state id = .ok written ∧
        (cursor.reports = false ∨ slot.attrs.unique = false → written.accepted = true) ∧
        Outside (place.buffer.bytes memory) (place.buffer.bytes written.memory)
          (place.offset.toNat + slot.offset.toNat) slot.length.toNat ∧
        cursor.header written.memory = cursor.header memory ∧
        (∀ other, other ≠ id → cursor.read written.memory other = cursor.read memory other) ∧
        (written.accepted = true →
          ∃ held, cursor.read written.memory id = .ok held ∧ write.value.ReadsAs held)) ∧
    ∀ (id other : Nat) (first second : FieldWrite) (slot beside : FieldSlot), id ≠ other →
      cursor.Accepts id first.value place slot → cursor.Accepts other second.value place beside →
      ∀ mid after side last, first.Leaves owner cursor memory id mid →
        second.Leaves owner cursor mid other after →
        second.Leaves owner cursor memory other side → first.Leaves owner cursor side id last →
        place.buffer.bytes after = place.buffer.bytes last := by
  obtain ⟨packed, -⟩ := Layout.build_packed built narrow
  constructor
  · intro state id write slot accepts
    have known : layout.fields[id]? = some slot := by rw [← stands.shape, accepts.field]
    obtain ⟨written, ran, unasked, refused, taken⟩ :=
      @FieldWrite.run_puts _ owner state _ _ _ _ _ _ _ packed stands accepts
    have outside : Outside (place.buffer.bytes memory) (place.buffer.bytes written.memory)
        (place.offset.toNat + slot.offset.toNat) slot.length.toNat := by
      cases accepted : written.accepted with
      | true => exact stored_outside packed stands known (taken accepted)
      | false =>
        rw [refused accepted]
        exact outside_refl _ _ _
    refine ⟨written, ran, unasked, outside, ?_, ?_, ?_⟩
    · rw [Cursor.header, Cursor.header, Cursor.require_place_ok.mpr stands.placed]
      exact header_kept packed known outside
    · intro other differ
      exact read_kept packed stands known outside differ
    · intro yes
      have type := (FieldWrite.filled_accepted accepts).type
      refine ⟨_, read_stored packed stands known type (taken yes), ?_⟩
      rw [FieldWrite.filled_stored]
      exact stored_reads write.value
  · intro id other first second slot beside differ accepts besideAccepts mid after side last
      one two three four
    have known : layout.fields[id]? = some slot := by rw [← stands.shape, accepts.field]
    have second : layout.fields[other]? = some beside := by
      rw [← stands.shape, besideAccepts.field]
    have stored := FieldWrite.leaves_stored packed stands accepts one
    have swapped := FieldWrite.leaves_stored packed stands besideAccepts three
    exact stored_comm packed stands known second differ stored
      (FieldWrite.leaves_stored packed (on_alike stands stored.alike) besideAccepts two) swapped
      (FieldWrite.leaves_stored packed (on_alike stands swapped.alike) accepts four)

def labelPlace : Place := ⟨⟨0, 1, 28, Capabilities.all⟩, 3⟩

def labelMemory : Memory := Memory.empty.grow 32

def labelCursor : Cursor := { layout := Layout.labelLayout, reports := true, place := labelPlace }

theorem label_round_trip :
    Layout.build Layout.labelSchema = .ok Layout.labelLayout ∧
      Layout.labelLayout.extent < UInt64.size ∧
      labelCursor.On Layout.labelLayout labelMemory labelPlace ∧
      ∃ mid after side last, ∃ held,
        (FieldWrite.padded [32, 97, 200]).Leaves indexOwner labelCursor labelMemory 1 mid ∧
        (FieldWrite.plain (.bool true)).Leaves indexOwner labelCursor mid 2 after ∧
        (FieldWrite.plain (.bool true)).Leaves indexOwner labelCursor labelMemory 2 side ∧
        (FieldWrite.padded [32, 97, 200]).Leaves indexOwner labelCursor side 1 last ∧
        labelPlace.buffer.bytes after = labelPlace.buffer.bytes last ∧
        labelCursor.read mid 1 = .ok held ∧ (Value.text [32, 97, 200]).ReadsAs held := by
  have built := Layout.label_built
  have narrow : Layout.labelLayout.extent < UInt64.size := by decide
  let unbound : Cursor := { layout := Layout.labelLayout, reports := true }
  have bound : unbound.bind labelPlace.buffer labelPlace.offset = .ok labelCursor := by decide
  have fits : labelPlace.buffer.Fits labelMemory := by
    rw [View.Fits]
    decide
  have stands : labelCursor.On Layout.labelLayout labelMemory labelPlace := bind_on rfl fits bound
  have tag : labelCursor.Accepts 1 (FieldWrite.padded [32, 97, 200]).value labelPlace
      { name := "tag", type := .fixedString, offset := 16, length := 5,
        attrs := { indexed := true, unique := true } } :=
    ⟨rfl, rfl, rfl, rfl, rfl, rfl, rfl⟩
  have live : labelCursor.Accepts 2 (FieldWrite.plain (.bool true)).value labelPlace
      { name := "live", type := .bool, offset := 21, length := 1, attrs := { indexed := true } } :=
    ⟨rfl, rfl, rfl, rfl, rfl, rfl, rfl⟩
  obtain ⟨single, swap⟩ := write_round_trip built narrow stands indexOwner
  obtain ⟨mid, after, side, last, one, two, three, four⟩ : ∃ mid after side last,
      (FieldWrite.padded [32, 97, 200]).Leaves indexOwner labelCursor labelMemory 1 mid ∧
      (FieldWrite.plain (.bool true)).Leaves indexOwner labelCursor mid 2 after ∧
      (FieldWrite.plain (.bool true)).Leaves indexOwner labelCursor labelMemory 2 side ∧
      (FieldWrite.padded [32, 97, 200]).Leaves indexOwner labelCursor side 1 last :=
    ⟨_, _, _, _, ⟨[], _, rfl, rfl, rfl⟩, ⟨[], _, rfl, rfl, rfl⟩, ⟨[], _, rfl, rfl, rfl⟩,
      ⟨[], _, rfl, rfl, rfl⟩⟩
  have same := swap 1 2 _ _ _ _ (by decide) tag live mid after side last one two three four
  obtain ⟨state, written, ran, yes, rfl⟩ := one
  obtain ⟨_, again, -, -, -, -, held⟩ := single state 1 (.padded [32, 97, 200]) _ tag
  cases ran.symm.trans again
  obtain ⟨held, reads, trimmed⟩ := held yes
  exact ⟨built, narrow, stands, _, after, side, last, held, ⟨state, written, ran, yes, rfl⟩, two,
    three, four, same, reads, trimmed⟩

end RecordStore
