import Mathlib.Algebra.BigOperators.Ring.Finset
import RecordStore.Proofs.Allocation

namespace RecordStore

theorem decode_le_sum (bytes : Bytes) : decodeLE bytes =
    ∑ i ∈ Finset.range bytes.length, (bytes.getD i 0).toNat * 256 ^ i := by
  induction bytes with
  | nil => rfl
  | cons b rest ih =>
    rw [List.length_cons, Finset.sum_range_succ', decodeLE, ih, Finset.mul_sum]
    have shifted : ∀ i ∈ Finset.range rest.length, 256 * ((rest.getD i 0).toNat * 256 ^ i) =
        ((b :: rest).getD (i + 1) 0).toNat * 256 ^ (i + 1) := by
      intro i _
      rw [List.getD_cons_succ, pow_succ', Nat.mul_left_comm]
    rw [Finset.sum_congr rfl shifted, List.getD_cons_zero, pow_zero, Nat.mul_one, Nat.add_comm]

theorem encode_le_digits (width n : Nat) :
    encodeLE width n = (List.range width).map fun i => (n / 256 ^ i).toUInt8 := by
  induction width generalizing n with
  | zero => rfl
  | succ width ih =>
    rw [encodeLE, ih, List.range_succ_eq_map, List.map_cons, List.map_map]
    simp [Function.comp_def, pow_succ', Nat.div_div_eq_div_mul]

namespace View

-- A view that was made out of another, and the sum of the offsets of the slices on the way.
inductive Cut (whole : View) : Nat → View → Prop
  | whole : Cut whole 0 whole
  | slice {base view offset length piece} (cut : Cut whole base view)
      (sliced : view.slice offset length = .ok piece) : Cut whole (base + offset.toNat) piece
  | readOnly {base view} (cut : Cut whole base view) : Cut whole base view.readOnly

structure Lies (whole : View) (base : Nat) (view : View) : Prop where
  region : view.region = whole.region
  start : view.start = whole.start + base
  inside : base + view.size.toNat ≤ whole.size.toNat
  caps : view.caps = whole.caps ∨ view.caps = Capabilities.none

def bounded {α : Type} (view : View) (offset length : UInt64) (answer : α) : Except Fault α :=
  if offset.toNat + length.toNat ≤ view.size.toNat then .ok answer else .error .outOfRange

section Bounded

variable {α β : Type} {view : View} {offset length : UInt64}

theorem bounded_then (answer : α) (word : α → β) :
    (view.bounded offset length answer >>= fun a => pure (word a)) =
      view.bounded offset length (word answer) := by
  by_cases room : offset.toNat + length.toNat ≤ view.size.toNat
  · simp only [bounded, if_pos room]
    rfl
  · simp only [bounded, if_neg room]
    rfl

theorem bounded_congr {one other : α}
    (same : offset.toNat + length.toNat ≤ view.size.toNat → one = other) :
    view.bounded offset length one = view.bounded offset length other := by
  by_cases room : offset.toNat + length.toNat ≤ view.size.toNat
  · rw [same room]
  · simp only [bounded, if_neg room]

theorem bounds_then (next : Unit → Except Fault α) :
    (view.checkBounds offset length >>= next) =
      if offset.toNat + length.toNat ≤ view.size.toNat then next () else .error .outOfRange := by
  have exact := in_bounds_iff view offset length
  by_cases room : offset.toNat + length.toNat ≤ view.size.toNat
  · rw [checkBounds, if_pos (exact.mpr room), if_pos room, ok_then]
  · rw [checkBounds, if_neg (mt exact.mp room), if_neg room, error_then]

theorem mutable_then (next : Unit → Except Fault α) :
    (view.checkMutable >>= next) = if view.isMutable then next () else .error .readOnly := by
  by_cases writable : view.isMutable = true
  · rw [checkMutable, if_pos writable, if_pos writable, ok_then]
  · rw [checkMutable, if_neg writable, if_neg writable, error_then]

end Bounded

section Lies

variable {whole view : View} {base : Nat} {memory : Memory} {offset length : UInt64}

theorem cut_lies (cut : whole.Cut base view) : whole.Lies base view := by
  induction cut with
  | whole => exact ⟨rfl, rfl, by omega, .inl rfl⟩
  | slice _ sliced ih =>
    obtain ⟨room, rfl⟩ := slice_ok.mp sliced
    rw [in_bounds_iff] at room
    have inside := ih.inside
    refine ⟨ih.region, ?_, ?_, ih.caps⟩
    · simp only [ih.start, Nat.add_assoc]
    · dsimp only
      omega
  | readOnly _ ih => exact ⟨ih.region, ih.start, ih.inside, .inr rfl⟩

theorem lies_offset (lies : whole.Lies base view)
    (room : offset.toNat + length.toNat ≤ view.size.toNat) :
    ∃ there : UInt64, there.toNat = base + offset.toNat ∧
      there.toNat + length.toNat ≤ whole.size.toNat ∧
      (∀ memory, view.peek memory offset length = whole.peek memory there length) ∧
      ∀ memory bytes, view.poke memory offset bytes = whole.poke memory there bytes := by
  have inside := lies.inside
  have small := whole.size.toNat_lt
  have there : (UInt64.ofNat (base + offset.toNat)).toNat = base + offset.toNat :=
    UInt64.toNat_ofNat_of_lt (by rw [UInt64.size]; omega)
  refine ⟨UInt64.ofNat (base + offset.toNat), there, by omega, fun memory => ?_,
    fun memory bytes => ?_⟩
  · simp only [peek, lies.region, lies.start, there, Nat.add_assoc]
  · simp only [poke, lies.region, lies.start, there, Nat.add_assoc]

theorem lies_peek (lies : whole.Lies base view)
    (room : offset.toNat + length.toNat ≤ view.size.toNat) :
    view.peek memory offset length =
      part (whole.bytes memory) (base + offset.toNat) length.toNat := by
  obtain ⟨there, same, inside, seen, -⟩ := lies_offset lies room
  rw [seen, peek_eq_part _ _ _ _ inside, same]

theorem lies_load (lies : whole.Lies base view) (memory : Memory) (offset length : UInt64) :
    view.load memory offset length = view.bounded offset length
      (part (whole.bytes memory) (base + offset.toNat) length.toNat) := by
  rw [load, bounds_then]
  exact bounded_congr (lies_peek lies)

theorem lies_number (lies : whole.Lies base view) (fits : whole.Fits memory) (offset : UInt64)
    {width : Nat} (small : width < UInt64.size) : view.loadNat memory offset width =
      view.bounded offset width.toUInt64 (∑ i ∈ Finset.range width,
        ((whole.bytes memory).getD (base + offset.toNat + i) 0).toNat * 256 ^ i) := by
  have word : width.toUInt64.toNat = width := UInt64.toNat_ofNat_of_lt small
  rw [loadNat, lies_load lies, bounded_then]
  refine bounded_congr fun room => ?_
  rw [word] at room ⊢
  have inside := lies.inside
  have length : (part (whole.bytes memory) (base + offset.toNat) width).length = width := by
    apply part_length
    rw [bytes_length _ _ fits]
    omega
  rw [decode_le_sum, length]
  refine Finset.sum_congr rfl fun i among => ?_
  rw [List.getD_eq_getElem?_getD, part_get, if_pos (Finset.mem_range.mp among),
    List.getD_eq_getElem?_getD]

theorem lies_slice (lies : whole.Lies base view) (memory : Memory) (offset length : UInt64) :
    (view.slice offset length).map (fun piece => (piece.size, piece.caps, piece.bytes memory)) =
      view.bounded offset length (length, view.caps,
        part (whole.bytes memory) (base + offset.toNat) length.toNat) := by
  rw [slice, bounds_then]
  by_cases room : offset.toNat + length.toNat ≤ view.size.toNat
  · rw [bounded, if_pos room, if_pos room, ← lies_peek lies room]
    rfl
  · rw [bounded, if_neg room, if_neg room]
    rfl

end Lies

structure Sees (view : View) (memory : Memory) (under : Bytes) (base : Nat) : Prop where
  text : ∀ offset length : UInt64, view.load memory offset length =
    view.bounded offset length (part under (base + offset.toNat) length.toNat)
  number : ∀ (offset : UInt64) (width : Nat), width < UInt64.size →
    view.loadNat memory offset width = view.bounded offset width.toUInt64
      (∑ i ∈ Finset.range width, (under.getD (base + offset.toNat + i) 0).toNat * 256 ^ i)
  check : ∀ offset length : UInt64, view.crc32 memory offset length =
    view.bounded offset length
      (Checksum.crc32 (part under (base + offset.toNat) length.toNat))
  castagnoli : ∀ offset length : UInt64, view.crc32c memory offset length =
    view.bounded offset length
      (Checksum.crc32c (part under (base + offset.toNat) length.toNat))
  slice : ∀ offset length : UInt64,
    (view.slice offset length).map (fun piece => (piece.size, piece.caps, piece.bytes memory)) =
      view.bounded offset length
        (length, view.caps, part under (base + offset.toNat) length.toNat)

theorem lies_sees {whole view : View} {base : Nat} {memory : Memory} (lies : whole.Lies base view)
    (fits : whole.Fits memory) : view.Sees memory (whole.bytes memory) base where
  text := lies_load lies memory
  number offset _ small := lies_number lies fits offset small
  check offset length := by rw [crc32, lies_load lies, bounded_then]
  castagnoli offset length := by rw [crc32c, lies_load lies, bounded_then]
  slice := lies_slice lies memory

end View

inductive ViewWrite where
  | number (offset : UInt64) (width n : Nat)
  | text (offset : UInt64) (bytes : Bytes)
  | fill (offset length : UInt64) (byte : UInt8)
  | copy (offset : UInt64) (source : View) (sourceOffset length : UInt64)

namespace ViewWrite

def work (view : View) (memory : Memory) : ViewWrite → Except Fault Memory
  | number offset width n => view.storeNat memory offset width n
  | text offset bytes => view.storeText memory offset bytes
  | fill offset length byte => view.fill memory offset length byte
  | copy offset source sourceOffset length => view.copy memory offset source sourceOffset length

def run (view : View) (write : ViewWrite) : EStateM Fault Memory Unit := do
  let memory ← get
  let after ← attempt (write.work view memory)
  set after

def offset : ViewWrite → UInt64
  | number offset .. | text offset .. | fill offset .. | copy offset .. => offset

def length : ViewWrite → Nat
  | number _ width _ => width
  | text _ bytes => bytes.length
  | fill _ length _ | copy _ _ _ length => length.toNat

def content (memory : Memory) : ViewWrite → Bytes
  | number _ width n => (List.range width).map fun i => (n / 256 ^ i).toUInt8
  | text _ bytes => bytes.map fun b => if 127 < b.toNat then '?'.toUInt8 else b
  | fill _ length byte => List.replicate length.toNat byte
  | copy _ source sourceOffset length =>
    part (source.bytes memory) sourceOffset.toNat length.toNat

def Proper (memory : Memory) (write : ViewWrite) : Prop :=
  write.length < UInt64.size ∧
    match write with
    | copy _ source _ _ => source.Fits memory
    | _ => True

def Room (view : View) (write : ViewWrite) : Prop :=
  write.offset.toNat + write.length ≤ view.size.toNat ∧
    match write with
    | copy _ source sourceOffset length =>
      sourceOffset.toNat + length.toNat ≤ source.size.toNat
    | _ => True

variable {whole view : View} {base : Nat} {memory : Memory} {write : ViewWrite}

theorem work_closed (closed : view.isMutable = false) :
    write.work view memory = .error .readOnly := by
  cases write <;>
    simp only [work, View.storeNat, View.storeText, View.store, View.fill, View.copy,
      View.mutable_then, closed, Bool.false_eq_true, if_false]

def Decided (view : View) (memory : Memory) (write : ViewWrite) (result : Except Fault Memory) :
    Prop :=
  (write.Room view → result = .ok (view.poke memory write.offset (write.content memory))) ∧
    (¬ write.Room view → result = .error .outOfRange)

theorem store_decided (writable : view.isMutable = true) (proper : write.Proper memory)
    (whole : (write.content memory).length = write.length)
    (alone : write.Room view ↔ write.offset.toNat + write.length ≤ view.size.toNat) :
    write.Decided view memory (view.store memory write.offset (write.content memory)) := by
  have word : write.length.toUInt64.toNat = write.length := UInt64.toNat_ofNat_of_lt proper.1
  rw [View.store, View.mutable_then, if_pos writable, View.bounds_then, whole, word]
  exact ⟨fun room => if_pos (alone.mp room), fun outside => if_neg (mt alone.mpr outside)⟩

theorem work_decided (writable : view.isMutable = true) (proper : write.Proper memory) :
    write.Decided view memory (write.work view memory) := by
  cases write with
  | number offset width n =>
    have digits : encodeLE width n = (number offset width n).content memory :=
      encode_le_digits width n
    rw [work, View.storeNat, digits]
    exact store_decided writable proper (by simp [content, length]) (by simp [Room])
  | text offset bytes =>
    exact store_decided writable proper (by simp [content, length]) (by simp [Room])
  | fill offset length byte =>
    rw [work, View.fill, View.mutable_then, if_pos writable, View.bounds_then]
    exact ⟨fun room => if_pos room.1, fun outside => if_neg fun room => outside ⟨room, trivial⟩⟩
  | copy offset source sourceOffset length =>
    rw [work, View.copy, View.mutable_then, if_pos writable, View.bounds_then]
    refine ⟨fun room => ?_, fun outside => ?_⟩
    · obtain ⟨inside, found⟩ : offset.toNat + length.toNat ≤ view.size.toNat ∧
        sourceOffset.toNat + length.toNat ≤ source.size.toNat := room
      rw [if_pos inside, View.bounds_then, if_pos found, View.peek_eq_part _ _ _ _ found]
      rfl
    · split
      · rename_i inside
        rw [View.bounds_then, if_neg fun found => outside ⟨inside, found⟩]
      · rfl

theorem content_length (proper : write.Proper memory) (room : write.Room view) :
    (write.content memory).length = write.length := by
  cases write with
  | number | text | fill => simp [content, length]
  | copy offset source sourceOffset length =>
    apply part_length
    rw [View.bytes_length _ _ proper.2]
    exact room.2

theorem poke_splices (lies : whole.Lies base view) (fits : whole.Fits memory)
    (proper : write.Proper memory) (room : write.Room view) :
    whole.bytes (view.poke memory write.offset (write.content memory)) =
      splice (whole.bytes memory) (base + write.offset.toNat) (write.content memory) := by
  have word : write.length.toUInt64.toNat = write.length := UInt64.toNat_ofNat_of_lt proper.1
  have inside : write.offset.toNat + write.length.toUInt64.toNat ≤ view.size.toNat := by
    rw [word]
    exact room.1
  obtain ⟨there, same, within, -, put⟩ := View.lies_offset lies inside
  rw [word] at within
  rw [put, View.bytes_poke _ _ _ _ fits (by rw [content_length proper room]; exact within), same]

structure Changes (whole view : View) (base : Nat) (write : ViewWrite) (before after : Memory) :
    Prop where
  elsewhere : ∀ region pos : Nat, region ≠ whole.region ∨
    pos < whole.start + (base + write.offset.toNat) ∨
    whole.start + (base + write.offset.toNat) + write.length ≤ pos →
      (after.region region)[pos]? = (before.region region)[pos]?
  seen : ∀ (there : Nat) (other : View), whole.Cut there other → other.Sees after
    (splice (whole.bytes before) (base + write.offset.toNat) (write.content before)) there
  back : ∀ (there : Nat) (other : View) (offset : UInt64), whole.Cut there other →
    there + offset.toNat = base + write.offset.toNat →
    offset.toNat + write.length ≤ other.size.toNat →
      other.load after offset write.length.toUInt64 = .ok (write.content before)

theorem run_changes (lies : whole.Lies base view) (fits : whole.Fits memory)
    (proper : write.Proper memory) :
    (view.isMutable = false → write.run view memory = .error .readOnly memory) ∧
    (view.isMutable = true → ¬ write.Room view → write.run view memory = .error .outOfRange memory) ∧
    (view.isMutable = true → write.Room view → ∃ after, write.run view memory = .ok () after ∧
      write.Changes whole view base memory after) := by
  refine ⟨fun closed => ?_, fun writable outside => ?_, fun writable room => ?_⟩
  · rw [run, get_bind, attempt_error (work_closed closed)]
  · rw [run, get_bind, attempt_error ((work_decided writable proper).2 outside)]
  · have put := (work_decided writable proper).1 room
    have whole_length := content_length proper room
    have seen (there : Nat) (other : View) (cut : whole.Cut there other) :
        other.Sees (view.poke memory write.offset (write.content memory))
          (splice (whole.bytes memory) (base + write.offset.toNat) (write.content memory)) there := by
      rw [← poke_splices lies fits proper room]
      exact View.lies_sees (View.cut_lies cut) (View.fits_alike fits (View.poke_alike _ _ _ _))
    refine ⟨view.poke memory write.offset (write.content memory), ?_, ?_, seen, ?_⟩
    · rw [run, get_bind, attempt_ok put]
      rfl
    · intro region pos apart
      rw [← Nat.add_assoc, ← lies.start, ← lies.region] at apart
      rw [← whole_length] at apart
      exact View.poke_elsewhere _ _ _ _ apart
    · intro there other offset cut same inside
      have word : write.length.toUInt64.toNat = write.length :=
        UInt64.toNat_ofNat_of_lt proper.1
      have covered := lies.inside
      have within := room.1
      rw [(seen there other cut).text, View.bounded, word, if_pos inside, same, ← whole_length,
        part_splice _ _ _ (by rw [View.bytes_length _ _ fits]; omega)]

end ViewWrite

theorem allocate_whole {memory after : Memory} {size alignment : UInt64} {view : View}
    (allocated : memory.allocate size alignment = .ok (view, after)) :
    view.size = size ∧ view.caps = Capabilities.all ∧ view.Fits after := by
  by_cases nothing : size = 0
  · rw [Memory.allocate, if_pos nothing] at allocated
    cases allocated
    exact ⟨nothing.symm, rfl, Nat.zero_le _⟩
  · obtain ⟨-, rfl, rfl⟩ := allocate_ok (word_pos nothing) allocated
    refine ⟨rfl, rfl, ?_⟩
    rw [View.Fits, Memory.region_grow, Region.blank, Array.size_replicate]
    exact Nat.le_of_eq (Nat.zero_add _)

theorem none_allows_nothing {view : View} (none : view.caps = Capabilities.none) :
    view.isMutable = false ∧ view.isAtomic = false := by
  rw [View.isMutable, View.isAtomic, none]
  exact ⟨rfl, rfl⟩

-- All that holds of a view made out of the view of an owned buffer, however often it was sliced and
-- made read-only, and whatever happened to memory since the buffer was allocated.
theorem cut_views_share_bytes {start made memory : Memory} {size alignment : UInt64}
    {whole view : View} {base : Nat} (owned : start.allocate size alignment = .ok (whole, made))
    (grows : made.Grows memory) (cut : whole.Cut base view) :
    (whole.bytes memory).length = size.toNat ∧
    view.Sees memory (whole.bytes memory) base ∧
    (∀ write : ViewWrite, write.Proper memory →
      (view.isMutable = false → write.run view memory = .error .readOnly memory) ∧
      (view.isMutable = true → ¬ write.Room view →
        write.run view memory = .error .outOfRange memory) ∧
      (view.isMutable = true → write.Room view → ∃ after, write.run view memory = .ok () after ∧
        write.Changes whole view base memory after)) ∧
    (view.caps = Capabilities.all ∨ view.caps = Capabilities.none) ∧
    ∀ (further : Nat) (piece : View), view.Cut further piece →
      (piece.isMutable = true → view.isMutable = true) ∧
        (piece.isAtomic = true → view.isAtomic = true) := by
  obtain ⟨sized, allows, fits⟩ := allocate_whole owned
  have fits : whole.Fits memory := Nat.le_trans fits (grows _)
  have lies := View.cut_lies cut
  refine ⟨?_, View.lies_sees lies fits, fun write proper => ViewWrite.run_changes lies fits proper,
    ?_, fun further piece cut => ?_⟩
  · rw [View.bytes_length _ _ fits, sized]
  · rw [← allows]
    exact lies.caps
  · rcases (View.cut_lies cut).caps with same | none
    · simp only [View.isMutable, View.isAtomic, same, imp_self, and_self]
    · simp [none_allows_nothing none]

theorem overlapping_cuts_share_bytes :
    ∃ whole made inner outer after, Memory.empty.allocate 16 64 = .ok (whole, made) ∧
      made.Grows made ∧ whole.Cut 6 inner ∧ whole.Cut 5 outer ∧
      (ViewWrite.text 1 [200, 65]).Proper made ∧ inner.isMutable = true ∧
      (ViewWrite.text 1 [200, 65]).Room inner ∧
      (ViewWrite.text 1 [200, 65]).run inner made = .ok () after ∧
      outer.load after 2 2 = .ok [63, 65] ∧
      inner.load made 18446744073709551615 2 = .error .outOfRange ∧
      (ViewWrite.fill 0 1 7).run outer made = .error .readOnly made := by
  let whole : View := ⟨0, 0, 16, Capabilities.all⟩
  let made : Memory := Memory.empty.grow 16
  let inner : View := ⟨0, 6, 4, Capabilities.all⟩
  let outer : View := ⟨0, 5, 6, Capabilities.none⟩
  have owned : Memory.empty.allocate 16 64 = .ok (whole, made) := rfl
  have grows : made.Grows made := fun _ => Nat.le_refl _
  let middle : View := ⟨0, 4, 8, Capabilities.all⟩
  let wide : View := ⟨0, 5, 6, Capabilities.all⟩
  have innerCut : whole.Cut 6 inner :=
    .slice (.slice .whole (rfl : whole.slice 4 8 = .ok middle)) (rfl : middle.slice 2 4 = .ok inner)
  have outerCut : whole.Cut 5 outer :=
    .readOnly (.slice .whole (rfl : whole.slice 5 6 = .ok wide))
  have proper : (ViewWrite.text 1 [200, 65]).Proper made := ⟨by decide, trivial⟩
  have room : (ViewWrite.text 1 [200, 65]).Room inner := ⟨by decide, trivial⟩
  obtain ⟨-, sees, writes, -, -⟩ := cut_views_share_bytes owned grows innerCut
  obtain ⟨-, -, others, -, -⟩ := cut_views_share_bytes owned grows outerCut
  obtain ⟨after, ran, changes⟩ := (writes _ proper).2.2 (by decide) room
  exact ⟨whole, made, inner, outer, after, owned, grows, innerCut, outerCut, proper, by decide, room, ran,
    changes.back 5 outer 2 outerCut rfl (by decide), sees.text _ _,
    (others (.fill 0 1 7) ⟨by decide, trivial⟩).1 (by decide)⟩

end RecordStore
