import RecordStore.Proofs.CursorPlaces

namespace RecordStore

section Content

variable {layout : Layout} {bytes : Bytes} {pos : Nat}

theorem content_apart (packed : layout.Packed) {i j : Nat} {one other : FieldSlot}
    (first : layout.fields[i]? = some one) (second : layout.fields[j]? = some other)
    (differ : i ≠ j) {fresh : Bytes} (whole : fresh.length = one.length.toNat)
    (room : pos + layout.stride.toNat ≤ bytes.length) :
    contentAt (splice bytes (pos + one.offset.toNat) fresh) pos other =
      contentAt bytes pos other := by
  have inside := packed.inside i one first
  have apart : other.offset.toNat + other.length.toNat ≤ one.offset.toNat ∨
      one.offset.toNat + one.length.toNat ≤ other.offset.toNat := by
    rcases Nat.lt_or_gt_of_ne differ with before | behind
    · exact .inr (packed.apart i j one other before first second)
    · exact .inl (packed.apart j i other one behind second first)
  apply part_splice_apart
  · omega
  · omega

theorem content_behind (packed : layout.Packed) {id : Nat} {slot : FieldSlot}
    (known : layout.fields[id]? = some slot) {header : Bytes} (eight : header.length = 8)
    (room : pos + layout.stride.toNat ≤ bytes.length) :
    contentAt (splice bytes pos header) pos slot = contentAt bytes pos slot := by
  have behind := packed.behind id slot known
  have stride := packed.header
  apply part_splice_apart
  · omega
  · omega

theorem content_same {slot : FieldSlot} {fresh : Bytes} (whole : fresh.length = slot.length.toNat)
    (room : pos + slot.offset.toNat + slot.length.toNat ≤ bytes.length) :
    contentAt (splice bytes (pos + slot.offset.toNat) fresh) pos slot = fresh := by
  rw [contentAt, ← whole]
  exact part_splice _ _ _ (by omega)

theorem content_whole (packed : layout.Packed) {id : Nat} {slot : FieldSlot}
    (known : layout.fields[id]? = some slot) {fresh : Bytes}
    (whole : fresh.length = layout.stride.toNat)
    (room : pos + layout.stride.toNat ≤ bytes.length) :
    contentAt (splice bytes pos fresh) pos slot = contentAt fresh 0 slot := by
  have inside := packed.inside id slot known
  rw [contentAt, contentAt, Nat.zero_add]
  exact part_splice_within _ _ _ _ _ (by omega) (by omega)

theorem content_outside (packed : layout.Packed) {id : Nat} {slot : FieldSlot}
    (known : layout.fields[id]? = some slot) {after : Bytes} {low length : Nat}
    (outside : Outside bytes after low length)
    (apart : pos + layout.stride.toNat ≤ low ∨ low + length ≤ pos) :
    contentAt after pos slot = contentAt bytes pos slot := by
  have inside := packed.inside id slot known
  exact part_outside outside _ _ (by omega)

theorem saved_record {place : Place} {memory : Memory} {bytes : Bytes}
    (fits : place.buffer.Fits memory)
    (found : place.buffer.load memory place.offset layout.stride = .ok bytes) :
    bytes.length = layout.stride.toNat ∧
      (layout.Packed → ∀ {id : Nat} {slot : FieldSlot}, layout.fields[id]? = some slot →
        contentAt bytes 0 slot = place.contentOf memory slot) := by
  obtain ⟨room, rfl⟩ := View.load_ok.mp found
  rw [View.in_bounds_iff] at room
  refine ⟨View.peek_length _ _ _ _ fits room, fun packed id slot known => ?_⟩
  rw [View.peek_eq_part _ _ _ _ room, contentAt, Nat.zero_add,
    part_part _ _ _ _ _ (packed.inside id slot known)]
  rfl

section Written

variable {id : Nat} {slot : FieldSlot} {fresh : Bytes} (packed : layout.Packed)
  (known : layout.fields[id]? = some slot) (whole : fresh.length = slot.length.toNat)
  (room : pos + layout.stride.toNat ≤ bytes.length)
include packed known whole room

theorem header_under : part (splice (splice bytes pos layout.header.encode)
    (pos + slot.offset.toNat) fresh) pos 8 = layout.header.encode := by
  have behind := packed.behind id slot known
  have inside := packed.inside id slot known
  have eight := layout.header.encode_length
  have start : pos + layout.header.encode.length ≤ bytes.length := by omega
  rw [part_splice_apart _ _ _ _ _ (by rw [splice_length _ _ _ start]; omega) (by omega), ← eight]
  exact part_splice _ _ _ start

theorem content_written : contentAt (splice (splice bytes pos layout.header.encode)
    (pos + slot.offset.toNat) fresh) pos slot = fresh := by
  have inside := packed.inside id slot known
  have eight := layout.header.encode_length
  have stride := packed.header
  have length := splice_length bytes pos layout.header.encode (by omega)
  exact content_same whole (by omega)

theorem content_beside {field : Nat} {other : FieldSlot}
    (column : layout.fields[field]? = some other) (differ : field ≠ id) :
    contentAt (splice (splice bytes pos layout.header.encode) (pos + slot.offset.toNat) fresh) pos
      other = contentAt bytes pos other := by
  have eight := layout.header.encode_length
  have stride := packed.header
  have length := splice_length bytes pos layout.header.encode (by omega)
  rw [content_apart packed known column differ.symm whole (by omega)]
  exact content_behind packed column eight room

end Written

end Content

theorem of_integer_typed {type : FieldType} {n : Int64} {value : Value}
    (cut : Value.ofInteger? type n = some value) :
    value.type = type ∧ ∀ length, value.overflow? length = none := by
  cases type with
  | int32 | int64 | int16 =>
    cases cut
    exact ⟨rfl, fun _ => rfl⟩
  | bool | char16 | fixedString | varString => cases cut

-- The bytes that an operation may put at some position of the record under a cursor.
inductive Patch (cursor : Cursor) : CursorOperation → Nat → Bytes → Prop
  | header : Patch cursor .putHeader 0 cursor.layout.header.encode
  | value {work : CursorOperation} {id : Nat} {slot : FieldSlot} {value : Value}
      (writes : work.Writes id slot value) (known : cursor.layout.fields[id]? = some slot)
      (unlocked : (slot.attrs.key && cursor.keyLocked) = false)
      (whole : (value.encode slot.length.toNat).length = slot.length.toNat) :
      Patch cursor work slot.offset.toNat (value.encode slot.length.toNat)
  | counter {work : CursorOperation} {id : Nat} {slot : FieldSlot} {fresh : Bytes}
      (known : cursor.layout.fields[id]? = some slot) (sequence : slot.attrs.sequence = true)
      (unlocked : (slot.attrs.key && cursor.keyLocked) = false)
      (whole : fresh.length = slot.length.toNat) : Patch cursor work slot.offset.toNat fresh
  | snapshot {bytes : Bytes} (saved : cursor.snapshot = some bytes)
      (whole : bytes.length = cursor.layout.stride.toNat) : Patch cursor .rollback 0 bytes

theorem unlocked_differs {layout : Layout} {cursor : Cursor} (shape : cursor.layout = layout)
    (locked : cursor.keyLocked = true) {field id : Nat} {slot key : FieldSlot}
    (known : layout.fields[id]? = some key) (keyed : key.attrs.key = true)
    (column : cursor.layout.fields[field]? = some slot)
    (unlocked : (slot.attrs.key && cursor.keyLocked) = false) : field ≠ id := by
  rintro rfl
  rw [shape] at column
  cases column.symm.trans known
  rw [keyed, locked] at unlocked
  cases unlocked

section Patch

variable {layout : Layout} {cursor : Cursor} {work : CursorOperation} {inner : Nat} {fresh : Bytes}
  (packed : layout.Packed) (shape : cursor.layout = layout) (patch : Patch cursor work inner fresh)
include packed shape patch

theorem patch_inside : inner + fresh.length ≤ layout.stride.toNat := by
  have header := packed.header
  cases patch with
  | header =>
    rw [Header.encode_length]
    omega
  | value writes known unlocked whole =>
    rw [shape] at known
    rw [whole]
    exact packed.inside _ _ known
  | counter known sequence unlocked whole =>
    rw [shape] at known
    rw [whole]
    exact packed.inside _ _ known
  | snapshot saved whole =>
    rw [whole, shape]
    omega

theorem patch_key (locked : cursor.keyLocked = true) {id : Nat} {key : FieldSlot}
    (known : layout.fields[id]? = some key) (keyed : key.attrs.key = true) {bytes : Bytes} {pos : Nat}
    (saved : work = .rollback → ∀ saved, cursor.snapshot = some saved →
      contentAt saved 0 key = contentAt bytes pos key)
    (room : pos + layout.stride.toNat ≤ bytes.length) :
    contentAt (splice bytes (pos + inner) fresh) pos key = contentAt bytes pos key := by
  cases patch with
  | header =>
    rw [Nat.add_zero]
    exact content_behind packed known (Header.encode_length _) room
  | value writes column unlocked whole =>
    have differ := unlocked_differs shape locked known keyed column unlocked
    rw [shape] at column
    exact content_apart packed column known differ whole room
  | counter column sequence unlocked whole =>
    have differ := unlocked_differs shape locked known keyed column unlocked
    rw [shape] at column
    exact content_apart packed column known differ whole room
  | snapshot found whole =>
    rw [shape] at whole
    rw [Nat.add_zero, content_whole packed known whole room]
    exact saved rfl _ found

end Patch

namespace Session

variable {σ : Type} {owner : IndexOwner σ} {layout : Layout} {view : View} {before : Session σ}

structure Confined (layout : Layout) (view : View) (session : Session σ) : Prop where
  shape : session.cursor.layout = layout
  stands : ∀ place, session.cursor.place = some place → place.buffer = view ∧ place.Holds layout
  fits : view.Fits session.memory

def Patches (view : View) (before : Session σ) (work : CursorOperation) (memory : Memory) : Prop :=
  ∃ place pos fresh, before.cursor.place = some place ∧ Patch before.cursor work pos fresh ∧
    view.bytes memory = splice (view.bytes before.memory) (place.offset.toNat + pos) fresh

section Confined

variable (confined : before.Confined layout view)
include confined

theorem headed_patches {place : Place} (placed : before.cursor.place = some place)
    (room : place.buffer.inBounds place.offset 8 = true) :
    before.Patches view .putHeader
      (place.buffer.poke before.memory place.offset before.cursor.layout.header.encode) := by
  obtain ⟨rfl, holds⟩ := confined.stands place placed
  rw [View.in_bounds_iff] at room
  refine ⟨place, 0, _, placed, .header, ?_⟩
  rw [Nat.add_zero]
  apply View.bytes_poke _ _ _ _ confined.fits
  rw [Header.encode_length]
  exact room

theorem restored_patches {bytes : Bytes} {memory : Memory}
    (saved : before.cursor.snapshot = some bytes) (whole : bytes.length = layout.stride.toNat)
    (put : before.cursor.buffer.store before.memory before.cursor.offset bytes = .ok memory) :
    before.Patches view .rollback memory := by
  obtain ⟨writable, -, rfl⟩ := View.store_ok.mp put
  cases placed : before.cursor.place with
  | none =>
    -- A cursor that stands nowhere has an empty buffer, which nothing can be stored in.
    rw [Cursor.buffer, placed] at writable
    cases writable
  | some place =>
    obtain ⟨rfl, holds⟩ := confined.stands place placed
    refine ⟨place, 0, bytes, placed, .snapshot saved (confined.shape ▸ whole), ?_⟩
    rw [Cursor.buffer_placed placed, Cursor.offset_placed placed, Nat.add_zero]
    apply View.bytes_poke _ _ _ _ confined.fits
    rw [whole]
    exact holds

variable (packed : layout.Packed)
include packed

theorem slot_bytes {field : Nat} {value : Value} {place : Place} {slot : FieldSlot}
    {memory : Memory} (placed : before.cursor.place = some place)
    (known : before.cursor.layout.fields[field]? = some slot) (typed : value.type = slot.type)
    (short : value.overflow? slot.length = none)
    (put : place.writeSlot before.memory slot value = .ok memory) :
    view.bytes memory = splice (view.bytes before.memory)
        (place.offset.toNat + slot.offset.toNat) (value.encode slot.length.toNat) ∧
      (value.encode slot.length.toNat).length = slot.length.toNat := by
  obtain ⟨rfl, holds⟩ := confined.stands place placed
  rw [confined.shape] at known
  obtain ⟨-, bytes⟩ := write_slot_ok packed known holds confined.fits typed short put
  exact ⟨bytes, FieldSlot.encode_length (packed.sized field slot known) typed short⟩

theorem advanced_patches {field : Nat} {place : Place} {slot : FieldSlot}
    (counts : before.cursor.Counts field place slot) (count : Nat) :
    before.Patches view (.advance field) (place.buffer.poke before.memory (place.ofSlot slot)
      (encodeLE slot.length.toNat count)) := by
  obtain ⟨rfl, holds⟩ := confined.stands place counts.placed
  have known := counts.field
  rw [confined.shape] at known
  obtain ⟨position, inside⟩ := slot_position packed known holds
  have length := encode_le_length slot.length.toNat count
  refine ⟨place, _, _, counts.placed,
    .counter counts.field counts.sequence counts.unlocked length, ?_⟩
  rw [← position]
  apply View.bytes_poke _ _ _ _ confined.fits
  rw [length, position]
  exact inside

theorem change_patches {work : CursorOperation}
    (whole : work = .rollback → ∀ bytes, before.cursor.snapshot = some bytes →
      bytes.length = layout.stride.toNat)
    {answer : CursorAnswer} {after : Session σ} (change : Change owner before work answer after) :
    view.bytes after.memory = view.bytes before.memory ∨ before.Patches view work after.memory := by
  cases change with
  | asked | locked | refused | begun | committed | kept => exact .inl rfl
  | headed placed writable room => exact .inr (headed_patches confined placed room)
  | written writes accepts free put =>
    obtain ⟨bytes, length⟩ := slot_bytes confined packed accepts.placed accepts.field
      accepts.type accepts.short put
    exact .inr ⟨_, _, _, accepts.placed, .value writes accepts.field accepts.unlocked length, bytes⟩
  | set counts cut put =>
    obtain ⟨typed, short⟩ := of_integer_typed cut
    obtain ⟨bytes, length⟩ :=
      slot_bytes confined packed counts.placed counts.field typed (short _) put
    exact .inr ⟨_, _, _, counts.placed,
      .counter counts.field counts.sequence counts.unlocked length, bytes⟩
  | advanced counts room => exact .inr (advanced_patches confined packed counts _)
  | restored saved put => exact .inr (restored_patches confined saved (whole rfl _ saved) put)

end Confined

end Session

namespace Table

variable {before : Table} {cursor : Cursor}

theorem stands_holds (formed : before.Formed) (stands : before.Stands cursor) {place : Place}
    (placed : cursor.place = some place) :
    place.buffer = before.buffer ∧ place.Holds before.layout := by
  obtain ⟨here, i, few, position⟩ := stands place placed
  refine ⟨here, ?_⟩
  rw [Place.Holds, position, here]
  exact slot_room formed few

theorem stands_confined (formed : before.Formed) (serves : before.Serves cursor)
    (stands : before.Stands cursor) :
    (before.session cursor).Confined before.layout before.buffer :=
  ⟨serves.shape, fun _ => stands_holds formed stands, formed.sound.fits⟩

def Patches (before : Table) (cursor : Cursor) (work : CursorOperation) (memory : Memory) : Prop :=
  ∃ place pos fresh, cursor.place = some place ∧ Patch cursor work pos fresh ∧
    before.buffer.bytes memory = splice before.bytes (place.offset.toNat + pos) fresh

theorem change_bytes (formed : before.Formed) (serves : before.Serves cursor)
    (stands : before.Stands cursor)
    (whole : ∀ bytes, cursor.snapshot = some bytes → bytes.length = before.layout.stride.toNat)
    {work : CursorOperation} {answer : CursorAnswer} {session : Session (List ValueIndex)}
    (change : Change indexOwner (before.session cursor) work answer session) :
    before.buffer.bytes session.memory = before.bytes ∨
      before.Patches cursor work session.memory :=
  Session.change_patches (stands_confined formed serves stands) formed.packed (fun _ => whole) change

end Table

end RecordStore
