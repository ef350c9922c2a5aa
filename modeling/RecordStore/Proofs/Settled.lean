import RecordStore.Proofs.CursorPlaces

namespace RecordStore

namespace View

theorem same_bytes_iff {one other : View} : one.sameBytes other = true ↔
    one.region = other.region ∧ one.start = other.start ∧ one.size = other.size := by
  rw [sameBytes, Bool.and_eq_true, Bool.and_eq_true, beq_iff_eq, beq_iff_eq, beq_iff_eq, and_assoc]

theorem same_bytes_trans {a b c : View} (first : a.sameBytes b = true)
    (later : b.sameBytes c = true) : a.sameBytes c = true := by
  rw [same_bytes_iff] at *
  exact ⟨first.1.trans later.1, first.2.1.trans later.2.1, first.2.2.trans later.2.2⟩

theorem same_bytes_symm {one other : View} (same : one.sameBytes other = true) :
    other.sameBytes one = true := by
  rw [same_bytes_iff] at *
  exact ⟨same.1.symm, same.2.1.symm, same.2.2.symm⟩

end View

-- The memories differ in the bytes of one region at most.
structure Memory.Within (region : Nat) (before after : Memory) : Prop where
  count : after.regions.size = before.regions.size
  limit : after.limit = before.limit
  size : (after.region region).size = (before.region region).size
  others : ∀ id, id ≠ region → after.region id = before.region id

namespace Memory

variable {region : Nat}

theorem within_refl (memory : Memory) : memory.Within region memory :=
  ⟨rfl, rfl, rfl, fun _ _ => rfl⟩

theorem within_trans {a b c : Memory} (first : a.Within region b) (later : b.Within region c) :
    a.Within region c :=
  ⟨later.count.trans first.count, later.limit.trans first.limit, later.size.trans first.size,
    fun id other => (later.others id other).trans (first.others id other)⟩

theorem poke_within (view : View) (memory : Memory) (offset : UInt64) (bytes : Bytes) :
    memory.Within view.region (view.poke memory offset bytes) := by
  refine ⟨?_, rfl, View.poke_alike view memory offset bytes view.region, fun id other => ?_⟩
  · rw [View.poke, overwrite, Array.size_modify]
  · rw [View.poke, region_overwrite, if_neg (Ne.symm other)]

theorem store_within {view : View} {memory after : Memory} {offset : UInt64} {bytes : Bytes}
    (put : view.store memory offset bytes = .ok after) : memory.Within view.region after := by
  obtain ⟨-, -, rfl⟩ := View.store_ok.mp put
  exact poke_within view memory offset bytes

theorem memory_ext {one other : Memory} (count : one.regions.size = other.regions.size)
    (limit : one.limit = other.limit) (regions : ∀ id, one.region id = other.region id) :
    one = other := by
  obtain ⟨one, _⟩ := one
  obtain ⟨other, _⟩ := other
  cases limit
  congr 1
  apply Array.ext count
  intro id inside there
  have same := regions id
  simp only [region] at same
  rwa [Array.getD_eq_getD_getElem?, Array.getD_eq_getD_getElem?, Array.getElem?_eq_getElem inside,
    Array.getElem?_eq_getElem there] at same

theorem poke_whole {view : View} {before after : Memory} (start : view.start = 0)
    (whole : (before.region view.region).size = view.size.toNat)
    (within : before.Within view.region after) :
    view.poke after 0 (view.bytes before) = before := by
  have put := poke_within view after 0 (view.bytes before)
  refine memory_ext (put.count.trans within.count) (put.limit.trans within.limit) fun id => ?_
  by_cases here : id = view.region
  · subst here
    have fits : view.Fits before := Nat.le_of_eq (by rw [start, whole, Nat.zero_add])
    have length := View.bytes_length view before fits
    apply Array.ext_getElem?
    intro i
    rw [View.poke, region_overwrite, if_pos rfl, Region.overwrite_get, length, start, within.size,
      whole]
    have zero : (0 : UInt64).toNat = 0 := rfl
    rw [zero, Nat.zero_add, Nat.zero_add, Nat.sub_zero]
    by_cases inside : i < view.size.toNat
    · rw [if_pos ⟨Nat.zero_le i, inside, inside⟩, View.bytes_get, if_pos inside, start, Nat.zero_add]
    · rw [if_neg fun covered => inside covered.2.1, Array.getElem?_eq_none, Array.getElem?_eq_none]
      · rw [whole]
        exact Nat.not_lt.mp inside
      · rw [within.size, whole]
        exact Nat.not_lt.mp inside
  · rw [put.others id here, within.others id here]

theorem back_of_bytes {view : View} {before after : Memory} (start : view.start = 0)
    (whole : (before.region view.region).size = view.size.toNat)
    (within : before.Within view.region after) (same : view.bytes after = view.bytes before) :
    after = before := by
  have size : (after.region view.region).size = view.size.toNat := by
    rw [within.size]
    exact whole
  calc after = view.poke after 0 (view.bytes after) :=
        (poke_whole start size (within_refl after)).symm
    _ = view.poke after 0 (view.bytes before) := by rw [same]
    _ = before := poke_whole start whole within

end Memory

namespace Session

variable {σ : Type} {owner : IndexOwner σ} {layout : Layout} {home : View} {base : Memory}
  {before after : Session σ} {operation : CursorOperation}

structure Settled (layout : Layout) (home : View) (base : Memory) (session : Session σ) : Prop where
  shape : session.cursor.layout = layout
  reports : session.cursor.reports = true
  placed : ∃ place, session.cursor.place = some place ∧ home.sameBytes place.buffer = true
  memory : base.Within home.region session.memory

theorem settled_region (settled : before.Settled layout home base) {place : Place}
    (placed : before.cursor.place = some place) : place.buffer.region = home.region := by
  obtain ⟨there, standing, same⟩ := settled.placed
  cases placed.symm.trans standing
  exact (View.same_bytes_iff.mp same).1.symm

theorem settled_memory (settled : before.Settled layout home base) {place : Place}
    (placed : before.cursor.place = some place) {memory : Memory}
    (put : before.memory.Within place.buffer.region memory) : base.Within home.region memory := by
  rw [settled_region settled placed] at put
  exact Memory.within_trans settled.memory put

theorem change_memory {answer : CursorAnswer} (settled : before.Settled layout home base)
    (change : Change owner before operation answer after) : base.Within home.region after.memory := by
  cases change with
  | asked | locked | refused | begun | committed | kept => exact settled.memory
  | headed placed => exact settled_memory settled placed (Memory.poke_within _ _ _ _)
  | written _ accepts _ put =>
    exact settled_memory settled accepts.placed (Memory.store_within put)
  | set counts _ put => exact settled_memory settled counts.placed (Memory.store_within put)
  | advanced counts => exact settled_memory settled counts.placed (Memory.poke_within _ _ _ _)
  | restored _ put =>
    obtain ⟨place, placed, -⟩ := settled.placed
    rw [Cursor.buffer_placed placed] at put
    exact settled_memory settled placed (Memory.store_within put)

theorem change_settled {answer : CursorAnswer} (settled : before.Settled layout home base)
    (change : Change owner before operation answer after) : after.Settled layout home base := by
  have alike := change_alike change
  refine ⟨alike.layout.trans settled.shape, alike.reports.trans settled.reports, ?_,
    change_memory settled change⟩
  rw [Table.change_place change]
  exact settled.placed

theorem bind_home (settled : before.Settled layout home base) {buffer : View} {offset : UInt64}
    {cursor : Cursor} (bound : before.cursor.bind buffer offset = .ok cursor) :
    home.sameBytes buffer = true := by
  obtain ⟨place, placed, same⟩ := settled.placed
  obtain ⟨-, stays, -⟩ := Cursor.move_ok.mp bound
  rw [settled.reports, placed] at stays
  simp only [Bool.true_and, Option.any_some, Bool.not_eq_false'] at stays
  exact View.same_bytes_trans same (View.same_bytes_symm stays)

theorem bind_settled (settled : before.Settled layout home base) {buffer : View} {offset : UInt64}
    {cursor : Cursor} (bound : before.cursor.bind buffer offset = .ok cursor) :
    Settled layout home base { before with cursor } := by
  have same := bind_home settled bound
  obtain ⟨-, -, rfl⟩ := Cursor.move_ok.mp bound
  exact ⟨settled.shape, settled.reports, ⟨_, rfl, same⟩, settled.memory⟩

theorem header_settled (settled : before.Settled layout home base) {memory : Memory}
    (put : before.cursor.putHeader before.memory = .ok memory) :
    Settled layout home base { before with memory } := by
  obtain ⟨place, placed, -, -, rfl⟩ := Cursor.put_header_ok put
  exact ⟨settled.shape, settled.reports, settled.placed,
    settled_memory settled placed (Memory.poke_within _ _ _ _)⟩

theorem move_settled {answer : Except Fault CursorAnswer} (settled : before.Settled layout home base)
    (move : Move before operation answer after) : after.Settled layout home base := by
  cases move with
  | bare bound | unheaded bound => exact bind_settled settled bound
  | headed bound put => exact header_settled (bind_settled settled bound) put

theorem settled_run (owner : IndexOwner σ) (operation : CursorOperation)
    (settled : before.Settled layout home base) :
    (stateOf (operation.run owner before)).Settled layout home base := by
  obtain ⟨answer, after, ran, ended⟩ := operation_outcome owner operation before
  rw [ran, state_of_outcome]
  rcases ended with ⟨fault, rfl, rfl⟩ | ⟨reply, rfl, change⟩ | move
  · exact settled
  · exact change_settled settled change
  · exact move_settled settled move

end Session

end RecordStore
