import RecordStore.Proofs.Patch

namespace RecordStore

theorem snoc_get {α : Type} {listed : List α} {last other : α} {i : Nat} :
    (listed ++ [last])[i]? = some other ↔
      listed[i]? = some other ∨ i = listed.length ∧ last = other := by
  rw [List.getElem?_append]
  by_cases inside : i < listed.length
  · rw [if_pos inside]
    have differ : i ≠ listed.length := Nat.ne_of_lt inside
    simp [differ]
  · have past : listed[i]? = none := List.getElem?_eq_none (by omega)
    rw [if_neg inside, past, List.getElem?_singleton]
    by_cases behind : i = listed.length
    · simp [behind]
    · have beyond : i - listed.length ≠ 0 := by omega
      simp [behind, beyond]

theorem signed_iff {type : FieldType} {bytes : Bytes} {key : Int64} {value : Value}
    (decoded : Value.decode? type bytes = some value) :
    type.signed? bytes = some key ↔ value.integer? = some key := by
  rw [FieldType.signed?, decoded, Option.bind_some]

theorem assign_claimed {index : ValueIndex} {offset : UInt64} {value other : Value}
    (claimed : other ∈ (index.assign offset value).claimed) :
    other = value ∨ other ∈ index.claimed := by
  have after : (index.assign offset value).claimed =
      if index.unique then index.claimed.insert value else index.claimed := rfl
  rw [after] at claimed
  split at claimed
  · rw [Std.ExtTreeSet.mem_insert, Std.LawfulEqCmp.compare_eq_iff_eq] at claimed
    exact claimed.imp_left Eq.symm
  · exact .inr claimed

namespace Table

def KeyAt (table : Table) (bytes : Bytes) (pos : Nat) (key : Int64) : Prop :=
  ∃ slot, table.layout.fields[table.keyPosition]? = some slot ∧
    slot.type.signed? (contentAt bytes pos slot) = some key

-- Whatever the index of the key knows stands for a key from the list.
def Names (table : Table) (knows : ValueIndex → Value → Prop) (indexes : List ValueIndex)
    (keys : List Int64) : Prop :=
  ∀ index ∈ indexes, index.field = table.keyPosition → ∀ value, knows index value →
    ∃ key ∈ keys, value.integer? = some key

def Claims (table : Table) (indexes : List ValueIndex) (keys : List Int64) : Prop :=
  ∀ index ∈ indexes, index.field = table.keyPosition → ∀ value ∈ index.claimed,
    ∃ key ∈ keys, value.integer? = some key

structure Tallied (table : Table) (bytes : Bytes) (contents : Contents) (keys : List Int64) :
    Prop where
  whole : bytes.length = table.buffer.size.toNat
  count : contents.count.toNat = keys.length
  distinct : keys.Nodup
  byKey : ∀ (key : Int64) (offset : UInt64), contents.offsetByKey[key]? = some offset ↔
    ∃ i : Nat, keys[i]? = some key ∧ offset.toNat = i * table.slotStride.toNat
  stored : ∀ (i : Nat) (key : Int64), keys[i]? = some key →
    table.KeyAt bytes (i * table.slotStride.toNat) key
  blank : ∀ (pos : Nat) (byte : UInt8), bytes[pos]? = some byte →
    (∀ i < keys.length, pos < i * table.slotStride.toNat ∨
      i * table.slotStride.toNat + table.layout.stride.toNat ≤ pos) → byte = 0
  claimed : table.Claims contents.indexes keys

section Tally

variable {table : Table} {bytes after : Bytes} {contents : Contents} {keys : List Int64}

theorem slots_apart (formed : table.Formed) {i j : Nat} (differ : i ≠ j) :
    i * table.slotStride.toNat + table.layout.stride.toNat ≤ j * table.slotStride.toNat ∨
      j * table.slotStride.toNat + table.layout.stride.toNat ≤ i * table.slotStride.toNat := by
  have spaced := formed.spaced
  rcases Nat.lt_or_gt_of_ne differ with before | behind
  · have below := Nat.mul_le_mul_right table.slotStride.toNat before
    rw [Nat.succ_mul] at below
    exact .inl (by omega)
  · have below := Nat.mul_le_mul_right table.slotStride.toNat behind
    rw [Nat.succ_mul] at below
    exact .inr (by omega)

theorem key_at_like {pos : Nat} {key : Int64} (keyed : table.KeyAt bytes pos key)
    (same : ∀ slot, table.layout.fields[table.keyPosition]? = some slot →
      contentAt after pos slot = contentAt bytes pos slot) : table.KeyAt after pos key := by
  obtain ⟨slot, known, read⟩ := keyed
  refine ⟨slot, known, ?_⟩
  rw [same slot known]
  exact read

theorem key_at_outside (formed : table.Formed) {i j : Nat} {key : Int64} (differ : i ≠ j)
    (outside : Outside bytes after (j * table.slotStride.toNat) table.layout.stride.toNat)
    (keyed : table.KeyAt bytes (i * table.slotStride.toNat) key) :
    table.KeyAt after (i * table.slotStride.toNat) key :=
  key_at_like keyed fun _ known =>
    content_outside formed.packed known outside (slots_apart formed differ)

theorem tallied_indexes {indexes : List ValueIndex} (tallied : table.Tallied bytes contents keys)
    (claims : table.Claims indexes keys) :
    table.Tallied bytes { contents with indexes } keys :=
  { tallied with claimed := claims }

theorem enter_key {key : Int64} (fresh : table.hasKey key = false) (other : Int64) :
    (table.contents.offsetByKey.insertIfNew key table.contents.nextFree)[other]? =
      if other = key then some table.contents.nextFree else table.contents.offsetByKey[other]? := by
  have absent : ¬ key ∈ table.contents.offsetByKey := by
    rw [← Std.ExtTreeMap.contains_iff_mem, ← hasKey, fresh]
    exact Bool.false_ne_true
  rw [Std.ExtTreeMap.getElem?_insertIfNew]
  by_cases same : other = key
  · rw [if_pos ⟨Std.LawfulEqCmp.compare_eq_iff_eq.mpr same.symm, absent⟩, if_pos same]
  · have differ : ¬ (compare key other = .eq ∧ ¬ key ∈ table.contents.offsetByKey) := fun taken =>
      same (Std.LawfulEqCmp.compare_eq_iff_eq.mp taken.1).symm
    rw [if_neg differ, if_neg same]

theorem tallied_touch (formed : table.Formed) (tallied : table.Tallied bytes contents keys) {i : Nat}
    (few : i < keys.length)
    (outside : Outside bytes after (i * table.slotStride.toNat) table.layout.stride.toNat)
    (same : ∀ slot, table.layout.fields[table.keyPosition]? = some slot →
      contentAt after (i * table.slotStride.toNat) slot =
        contentAt bytes (i * table.slotStride.toNat) slot) :
    table.Tallied after contents keys := by
  refine { tallied with whole := outside.whole.trans tallied.whole, stored := ?_, blank := ?_ }
  · intro j key known
    have keyed := tallied.stored j key known
    by_cases here : j = i
    · subst here
      exact key_at_like keyed same
    · exact key_at_outside formed here outside keyed
  · intro pos byte found beside
    refine tallied.blank pos byte ?_ beside
    rw [← outside.same pos (beside i few)]
    exact found

section Now

variable (formed : table.Formed) (tallied : table.Tallied table.bytes table.contents keys)
include formed tallied

theorem keys_few : keys.length ≤ table.capacity.toNat := by
  rw [← tallied.count]
  exact formed.counted.count

theorem next_position :
    table.contents.nextFree.toNat = keys.length * table.slotStride.toNat := by
  rw [formed.counted.next, tallied.count]

theorem slot_offset {i : Nat} (few : i < keys.length) :
    ∃ offset : UInt64, offset.toNat = i * table.slotStride.toNat := by
  have room := slot_room formed (Nat.lt_of_lt_of_le few (keys_few formed tallied))
  have small := table.buffer.size.toNat_lt
  refine ⟨UInt64.ofNat (i * table.slotStride.toNat), ?_⟩
  exact UInt64.toNat_ofNat_of_lt (by rw [UInt64.size]; omega)

theorem key_present {key : Int64} : table.hasKey key = true ↔ key ∈ keys := by
  rw [hasKey, Std.ExtTreeMap.contains_iff_mem, Std.ExtTreeMap.mem_iff_isSome_getElem?,
    Option.isSome_iff_exists]
  constructor
  · intro shown
    obtain ⟨offset, found⟩ := shown
    obtain ⟨i, known, -⟩ := (tallied.byKey key offset).mp found
    exact List.mem_of_getElem? known
  · intro member
    obtain ⟨i, known⟩ := List.mem_iff_getElem?.mp member
    obtain ⟨few, -⟩ := List.getElem?_eq_some_iff.mp known
    obtain ⟨offset, position⟩ := slot_offset formed tallied few
    exact ⟨offset, (tallied.byKey key offset).mpr ⟨i, known, position⟩⟩

theorem names_new (knows : ValueIndex → Value → Prop) {key : Int64} {value : Value}
    {index : ValueIndex} (names : table.Names knows table.contents.indexes keys)
    (fresh : table.hasKey key = false) (whole : value.integer? = some key)
    (member : index ∈ table.contents.indexes) (position : index.field = table.keyPosition) :
    ¬ knows index value := by
  intro known
  obtain ⟨old, listed, same⟩ := names index member position value known
  cases whole.symm.trans same
  rw [(key_present formed tallied).mpr listed] at fresh
  cases fresh

theorem enter_found {key other : Int64} {offset : UInt64} (fresh : table.hasKey key = false) :
    (table.contents.offsetByKey.insertIfNew key table.contents.nextFree)[other]? = some offset ↔
      ∃ i : Nat, (keys ++ [key])[i]? = some other ∧
        offset.toNat = i * table.slotStride.toNat := by
  have missing : key ∉ keys := by
    rw [← key_present formed tallied, fresh]
    exact Bool.false_ne_true
  rw [enter_key fresh]
  by_cases same : other = key
  · subst same
    rw [if_pos rfl, Option.some.injEq, ← UInt64.toNat_inj, next_position formed tallied]
    constructor
    · intro position
      exact ⟨keys.length, snoc_get.mpr (.inr ⟨rfl, rfl⟩), position.symm⟩
    · intro shown
      obtain ⟨i, known, position⟩ := shown
      rcases snoc_get.mp known with old | ⟨rfl, -⟩
      · exact absurd (List.mem_of_getElem? old) missing
      · exact position.symm
  · rw [if_neg same, tallied.byKey]
    constructor
    · intro shown
      obtain ⟨i, known, position⟩ := shown
      exact ⟨i, snoc_get.mpr (.inl known), position⟩
    · intro shown
      obtain ⟨i, known, position⟩ := shown
      rcases snoc_get.mp known with old | ⟨-, rfl⟩
      · exact ⟨i, old, position⟩
      · exact absurd rfl same

theorem tallied_enter (room : table.isFull = false) {key : Int64}
    (fresh : table.hasKey key = false) {indexes : List ValueIndex}
    (outside : Outside table.bytes after table.contents.nextFree.toNat table.layout.stride.toNat)
    (keyed : table.KeyAt after table.contents.nextFree.toNat key)
    (claims : table.Claims indexes (keys ++ [key])) :
    table.Tallied after (table.contents.enter indexes key table.slotStride) (keys ++ [key]) := by
  have missing : key ∉ keys := by
    rw [← key_present formed tallied, fresh]
    exact Bool.false_ne_true
  rw [next_position formed tallied] at outside keyed
  refine ⟨outside.whole.trans tallied.whole, ?_, ?_, fun _ _ => enter_found formed tallied fresh,
    ?_, ?_, claims⟩
  · rw [List.length_append, ← tallied.count]
    exact count_next room
  · rw [List.nodup_append]
    refine ⟨tallied.distinct, List.pairwise_singleton _ key, ?_⟩
    intro old member last alone same
    rw [same, List.mem_singleton.mp alone] at member
    exact missing member
  · intro i other known
    rcases snoc_get.mp known with old | ⟨rfl, rfl⟩
    · have few := (List.getElem?_eq_some_iff.mp old).1
      exact key_at_outside formed (Nat.ne_of_lt few) outside (tallied.stored i other old)
    · exact keyed
  · intro pos byte found beside
    have grown : (keys ++ [key]).length = keys.length + 1 := List.length_append
    refine tallied.blank pos byte ?_ fun i few => beside i (by omega)
    rw [← outside.same pos (beside keys.length (by omega))]
    exact found

end Now

end Tally

end Table

end RecordStore
