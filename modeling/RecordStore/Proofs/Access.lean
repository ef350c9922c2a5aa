import RecordStore.Proofs.Action
import RecordStore.Proofs.Splice

namespace RecordStore

def Memory.Alike (before after : Memory) : Prop :=
  ∀ id, (after.region id).size = (before.region id).size

theorem Memory.alike_refl (memory : Memory) : memory.Alike memory := fun _ => rfl

theorem Memory.alike_trans {a b c : Memory} (first : a.Alike b) (later : b.Alike c) : a.Alike c :=
  fun id => (later id).trans (first id)

def Memory.Grows (before after : Memory) : Prop :=
  ∀ id, (before.region id).size ≤ (after.region id).size

theorem Memory.grows_iff {before after : Memory} : before.Grows after ↔
    ∀ id < before.regions.size, (before.region id).size ≤ (after.region id).size := by
  refine ⟨fun grows id _ => grows id, fun grows id => ?_⟩
  by_cases old : id < before.regions.size
  · exact grows id old
  · have absent : before.region id = #[] := by
      rw [Memory.region, Array.getD_eq_getD_getElem?, Array.getElem?_eq_none (Nat.not_lt.mp old)]
      rfl
    rw [absent]
    exact Nat.zero_le _

instance (before after : Memory) : Decidable (before.Grows after) :=
  decidable_of_iff' _ Memory.grows_iff

namespace View

theorem mutable_of_all {view : View} (caps : view.caps = Capabilities.all) :
    view.isMutable = true := by
  rw [isMutable, caps]
  decide

def Fits (view : View) (memory : Memory) : Prop :=
  view.start + view.size.toNat ≤ (memory.region view.region).size

theorem fits_alike {view : View} {before after : Memory} (fits : view.Fits before)
    (alike : before.Alike after) : view.Fits after := by
  rw [Fits, alike]
  exact fits

theorem check_bounds_ok {view : View} {offset length : UInt64} :
    view.checkBounds offset length = .ok () ↔ view.inBounds offset length = true := by
  rw [checkBounds]
  split <;> simp_all

theorem check_mutable_ok {view : View} : view.checkMutable = .ok () ↔ view.isMutable = true := by
  rw [checkMutable]
  split <;> simp_all

theorem load_ok {view : View} {memory : Memory} {offset length : UInt64} {bytes : Bytes} :
    view.load memory offset length = .ok bytes ↔
      view.inBounds offset length = true ∧ view.peek memory offset length = bytes := by
  rw [load, except_bind_ok]
  constructor
  · intro shown
    obtain ⟨⟨⟩, room, found⟩ := shown
    exact ⟨check_bounds_ok.mp room, Except.ok.inj found⟩
  · intro shown
    obtain ⟨room, rfl⟩ := shown
    exact ⟨(), check_bounds_ok.mpr room, rfl⟩

theorem store_ok {view : View} {memory after : Memory} {offset : UInt64} {bytes : Bytes} :
    view.store memory offset bytes = .ok after ↔ view.isMutable = true ∧
      view.inBounds offset bytes.length.toUInt64 = true ∧ view.poke memory offset bytes = after := by
  rw [store, except_bind_ok]
  constructor
  · intro shown
    obtain ⟨⟨⟩, writable, rest⟩ := shown
    obtain ⟨⟨⟩, room, put⟩ := except_bind_ok.mp rest
    exact ⟨check_mutable_ok.mp writable, check_bounds_ok.mp room, Except.ok.inj put⟩
  · intro shown
    obtain ⟨writable, room, rfl⟩ := shown
    exact ⟨(), check_mutable_ok.mpr writable,
      except_bind_ok.mpr ⟨(), check_bounds_ok.mpr room, rfl⟩⟩

theorem fill_ok {view : View} {memory after : Memory} {offset length : UInt64} {byte : UInt8} :
    view.fill memory offset length byte = .ok after ↔ view.isMutable = true ∧
      view.inBounds offset length = true ∧
        view.poke memory offset (List.replicate length.toNat byte) = after := by
  rw [fill, except_bind_ok]
  constructor
  · intro shown
    obtain ⟨⟨⟩, writable, rest⟩ := shown
    obtain ⟨⟨⟩, room, put⟩ := except_bind_ok.mp rest
    exact ⟨check_mutable_ok.mp writable, check_bounds_ok.mp room, Except.ok.inj put⟩
  · intro shown
    obtain ⟨writable, room, rfl⟩ := shown
    exact ⟨(), check_mutable_ok.mpr writable,
      except_bind_ok.mpr ⟨(), check_bounds_ok.mpr room, rfl⟩⟩

theorem copy_ok {view source : View} {memory after : Memory} {offset sourceOffset length : UInt64} :
    view.copy memory offset source sourceOffset length = .ok after ↔ view.isMutable = true ∧
      view.inBounds offset length = true ∧ source.inBounds sourceOffset length = true ∧
        view.poke memory offset (source.peek memory sourceOffset length) = after := by
  rw [copy, except_bind_ok]
  constructor
  · intro shown
    obtain ⟨⟨⟩, writable, rest⟩ := shown
    obtain ⟨⟨⟩, room, rest⟩ := except_bind_ok.mp rest
    obtain ⟨⟨⟩, sourceRoom, put⟩ := except_bind_ok.mp rest
    exact ⟨check_mutable_ok.mp writable, check_bounds_ok.mp room, check_bounds_ok.mp sourceRoom,
      Except.ok.inj put⟩
  · intro shown
    obtain ⟨writable, room, sourceRoom, rfl⟩ := shown
    exact ⟨(), check_mutable_ok.mpr writable, except_bind_ok.mpr ⟨(), check_bounds_ok.mpr room,
      except_bind_ok.mpr ⟨(), check_bounds_ok.mpr sourceRoom, rfl⟩⟩⟩

theorem slice_ok {view part : View} {offset length : UInt64} :
    view.slice offset length = .ok part ↔ view.inBounds offset length = true ∧
      { view with start := view.start + offset.toNat, size := length } = part := by
  rw [slice, except_bind_ok]
  constructor
  · intro shown
    obtain ⟨⟨⟩, room, made⟩ := shown
    exact ⟨check_bounds_ok.mp room, Except.ok.inj made⟩
  · intro shown
    obtain ⟨room, rfl⟩ := shown
    exact ⟨(), check_bounds_ok.mpr room, rfl⟩

theorem poke_alike (view : View) (memory : Memory) (offset : UInt64) (bytes : Bytes) :
    memory.Alike (view.poke memory offset bytes) := by
  intro id
  rw [poke, Memory.region_overwrite]
  split
  · exact Region.overwrite_size _ _ _
  · rfl

theorem bytes_length (view : View) (memory : Memory) (fits : view.Fits memory) :
    (view.bytes memory).length = view.size.toNat := by
  rw [bytes, peek]
  exact Region.window_length _ _ _ (by simpa [Fits] using fits)

theorem bytes_get (view : View) (memory : Memory) (i : Nat) :
    (view.bytes memory)[i]? =
      if i < view.size.toNat then (memory.region view.region)[view.start + i]? else none := by
  rw [bytes, peek, Region.window_get]
  simp

theorem peek_eq_part (view : View) (memory : Memory) (offset length : UInt64)
    (inside : offset.toNat + length.toNat ≤ view.size.toNat) :
    view.peek memory offset length = part (view.bytes memory) offset.toNat length.toNat := by
  apply List.ext_getElem?
  intro i
  rw [peek, Region.window_get, part_get, bytes_get]
  by_cases h : i < length.toNat
  · have covered : offset.toNat + i < view.size.toNat := by omega
    rw [if_pos h, if_pos h, if_pos covered, Nat.add_assoc]
  · rw [if_neg h, if_neg h]

theorem peek_length (view : View) (memory : Memory) (offset length : UInt64)
    (fits : view.Fits memory) (inside : offset.toNat + length.toNat ≤ view.size.toNat) :
    (view.peek memory offset length).length = length.toNat := by
  rw [peek_eq_part view memory offset length inside]
  apply part_length
  rw [bytes_length view memory fits]
  exact inside

theorem peek_short (view : View) (memory : Memory) (offset length : UInt64) :
    (view.peek memory offset length).length ≤ length.toNat := by
  simp only [peek, Region.window, Array.length_toList, Array.size_extract]
  omega

theorem bytes_poke (view : View) (memory : Memory) (offset : UInt64) (fresh : Bytes)
    (fits : view.Fits memory) (inside : offset.toNat + fresh.length ≤ view.size.toNat) :
    view.bytes (view.poke memory offset fresh) =
      splice (view.bytes memory) offset.toNat fresh := by
  have room : offset.toNat + fresh.length ≤ (view.bytes memory).length := by
    rw [bytes_length view memory fits]
    exact inside
  have reach : view.start + view.size.toNat ≤ (memory.region view.region).size := fits
  apply List.ext_getElem?
  intro i
  rw [bytes_get, splice_get _ _ _ _ room, bytes_get, poke, Memory.region_overwrite, if_pos rfl,
    Region.overwrite_get]
  by_cases within : offset.toNat ≤ i ∧ i < offset.toNat + fresh.length
  · have covered : i < view.size.toNat := by omega
    have written : view.start + offset.toNat ≤ view.start + i ∧
        view.start + i < view.start + offset.toNat + fresh.length ∧
        view.start + i < (memory.region view.region).size := by omega
    have shifted : view.start + i - (view.start + offset.toNat) = i - offset.toNat := by omega
    rw [if_pos covered, if_pos written, if_pos within, shifted]
  · have untouched : ¬ (view.start + offset.toNat ≤ view.start + i ∧
        view.start + i < view.start + offset.toNat + fresh.length ∧
        view.start + i < (memory.region view.region).size) := by omega
    rw [if_neg untouched, if_neg within]

theorem poke_elsewhere (view : View) (memory : Memory) (offset : UInt64) (bytes : Bytes)
    {region pos : Nat} (apart : region ≠ view.region ∨ pos < view.start + offset.toNat ∨
      view.start + offset.toNat + bytes.length ≤ pos) :
    ((view.poke memory offset bytes).region region)[pos]? = (memory.region region)[pos]? := by
  rw [poke, Memory.region_overwrite]
  by_cases here : view.region = region
  · have beside := apart.resolve_left (not_not_intro here.symm)
    rw [if_pos here, Region.overwrite_get, if_neg (by omega)]
  · rw [if_neg here]

theorem peek_poke (view : View) (memory : Memory) (offset length : UInt64) {fresh : Bytes}
    (fits : view.Fits memory) (inside : offset.toNat + length.toNat ≤ view.size.toNat)
    (whole : fresh.length = length.toNat) :
    view.peek (view.poke memory offset fresh) offset length = fresh := by
  rw [← whole] at inside
  rw [peek_eq_part _ _ _ _ (by rw [← whole]; exact inside), bytes_poke _ _ _ _ fits inside, ← whole]
  apply part_splice
  rw [bytes_length _ _ fits]
  exact inside

theorem in_bounds_small {view : View} {offset : UInt64} {bytes : Bytes}
    (small : bytes.length < UInt64.size) :
    view.inBounds offset bytes.length.toUInt64 = true ↔
      offset.toNat + bytes.length ≤ view.size.toNat := by
  rw [in_bounds_iff]
  have same : bytes.length.toUInt64.toNat = bytes.length := by
    simpa using Nat.mod_eq_of_lt small
  rw [same]

end View

end RecordStore
