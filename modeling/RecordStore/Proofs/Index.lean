import RecordStore.ValueIndex

namespace RecordStore.ValueIndex

def heldBy (holders : Std.ExtTreeMap Value OffsetSet) (value : Value) : OffsetSet :=
  holders[value]?.getD ∅

structure Paired (index : ValueIndex) : Prop where
  agree : ∀ (value : Value) (offset : UInt64),
    offset ∈ heldBy index.holders value ↔ index.values[offset]? = some value

theorem new_paired (field : Nat) (unique : Bool) : Paired { field, unique } := by
  refine ⟨fun value offset => ?_⟩
  simp [heldBy]

theorem mem_offsets_of {index : ValueIndex} {value : Value} {offset : UInt64} :
    offset ∈ index.offsetsOf value ↔ offset ∈ heldBy index.holders value :=
  Std.ExtTreeSet.mem_toList

theorem offsets_of_ascending (index : ValueIndex) (value : Value) :
    (index.offsetsOf value).Pairwise (· < ·) := by
  have ordered : (index.offsetsOf value).Pairwise fun a b => compare a b = .lt :=
    Std.ExtTreeSet.ordered_toList
  exact ordered.imp fun less => Std.compare_eq_lt.mp less

theorem drop_holder_held (holders : Std.ExtTreeMap Value OffsetSet) (old value : Value)
    (dropped offset : UInt64) :
    offset ∈ heldBy (dropHolder holders old dropped) value ↔
      offset ∈ heldBy holders value ∧ ¬ (value = old ∧ offset = dropped) := by
  rw [dropHolder]
  cases found : holders[old]? with
  | none =>
    by_cases same : value = old
    · subst same
      simp [heldBy, found]
    · simp [same]
  | some offsets =>
    have rest : offset ∈ offsets.erase dropped ↔ offset ∈ offsets ∧ ¬ offset = dropped := by
      rw [Std.ExtTreeSet.mem_erase, ne_eq, Std.LawfulEqCmp.compare_eq_iff_eq, and_comm, eq_comm]
    by_cases same : value = old
    · subst same
      by_cases empty : (offsets.erase dropped).isEmpty = true
      · have none_left := Std.ExtTreeSet.isEmpty_iff.mp empty
        rw [none_left] at rest
        simp [heldBy, found, empty, ← rest]
      · simp [heldBy, found, empty, ← rest]
    · have apart : compare old value ≠ .eq := by
        rw [ne_eq, Std.LawfulEqCmp.compare_eq_iff_eq]
        exact fun equal => same equal.symm
      by_cases empty : (offsets.erase dropped).isEmpty = true
      · simp [heldBy, empty, same, Std.ExtTreeMap.getElem?_erase, apart]
      · simp [heldBy, empty, same, Std.ExtTreeMap.getElem?_insert, apart]

theorem replaced_some {index : ValueIndex} {offset : UInt64} {value old : Value}
    (found : index.replaced offset value = some old) :
    index.values[offset]? = some old ∧ old ≠ value := by
  rw [replaced, Option.filter_eq_some_iff] at found
  exact ⟨found.1, by simpa using found.2⟩

theorem replaced_none {index : ValueIndex} {offset : UInt64} {value other : Value}
    (found : index.replaced offset value = none) (held : index.values[offset]? = some other) :
    other = value := by
  rw [replaced, held, Option.filter_some] at found
  by_cases same : other = value
  · exact same
  · simp [same] at found

def kept (index : ValueIndex) (offset : UInt64) (value : Value) : Std.ExtTreeMap Value OffsetSet :=
  match index.replaced offset value with
  | some old => dropHolder index.holders old offset
  | none => index.holders

theorem kept_held {index : ValueIndex} (paired : index.Paired) (entered offset : UInt64)
    (value other : Value) :
    offset ∈ heldBy (index.kept entered value) other ↔
      offset ∈ heldBy index.holders other ∧ ¬ (offset = entered ∧ other ≠ value) := by
  rw [kept]
  cases found : index.replaced entered value with
  | none =>
    constructor
    · intro held
      refine ⟨held, ?_⟩
      intro shown
      obtain ⟨rfl, differ⟩ := shown
      exact differ (replaced_none found ((paired.agree other offset).mp held))
    · exact And.left
  | some old =>
    obtain ⟨before, differ⟩ := replaced_some found
    rw [drop_holder_held]
    constructor
    · intro shown
      obtain ⟨held, apart⟩ := shown
      refine ⟨held, ?_⟩
      intro shown
      obtain ⟨rfl, _⟩ := shown
      have last := (paired.agree other offset).mp held
      rw [before] at last
      exact apart ⟨(Option.some.inj last).symm, rfl⟩
    · intro shown
      obtain ⟨held, apart⟩ := shown
      refine ⟨held, ?_⟩
      intro shown
      obtain ⟨rfl, rfl⟩ := shown
      exact apart ⟨rfl, differ⟩

theorem assign_values (index : ValueIndex) (entered offset : UInt64) (value : Value) :
    (index.assign entered value).values[offset]? =
      if offset = entered then some value else index.values[offset]? := by
  have values : (index.assign entered value).values = index.values.insert entered value := rfl
  rw [values, Std.ExtTreeMap.getElem?_insert]
  by_cases here : offset = entered
  · simp [here]
  · have apart : ¬ entered = offset := fun same => here same.symm
    simp [here, apart]

def Carries (index : ValueIndex) (value : Value) : Prop :=
  ∃ offset : UInt64, index.values[offset]? = some value

theorem assign_carries (index : ValueIndex) (offset : UInt64) (value other : Value)
    (carries : (index.assign offset value).Carries other) : other = value ∨ index.Carries other := by
  obtain ⟨place, held⟩ := carries
  rw [assign_values] at held
  split at held
  · exact .inl (Option.some.inj held).symm
  · exact .inr ⟨place, held⟩

theorem assign_holds (index : ValueIndex) (entered : UInt64) (value : Value) :
    entered ∈ heldBy (index.assign entered value).holders value := by
  have holders : (index.assign entered value).holders = (index.kept entered value).insert value
    ((heldBy (index.kept entered value) value).insert entered) := rfl
  rw [holders, heldBy, Std.ExtTreeMap.getElem?_insert_self]
  exact Std.ExtTreeSet.mem_insert_self

theorem assign_paired {index : ValueIndex} (paired : index.Paired) (entered : UInt64)
    (value : Value) : (index.assign entered value).Paired := by
  refine ⟨fun other offset => ?_⟩
  have holders : (index.assign entered value).holders = (index.kept entered value).insert value
    ((heldBy (index.kept entered value) value).insert entered) := rfl
  rw [holders, assign_values]
  by_cases same : other = value
  · subst same
    have now : heldBy ((index.kept entered other).insert other
        ((heldBy (index.kept entered other) other).insert entered)) other =
          (heldBy (index.kept entered other) other).insert entered := by simp [heldBy]
    rw [now, Std.ExtTreeSet.mem_insert, Std.LawfulEqCmp.compare_eq_iff_eq, kept_held paired,
      paired.agree, eq_comm]
    by_cases here : offset = entered
    · simp [here]
    · simp [here]
  · have apart : compare value other ≠ .eq := by
      rw [ne_eq, Std.LawfulEqCmp.compare_eq_iff_eq]
      exact fun equal => same equal.symm
    have now : heldBy ((index.kept entered value).insert value
        ((heldBy (index.kept entered value) value).insert entered)) other =
          heldBy (index.kept entered value) other := by
      simp [heldBy, Std.ExtTreeMap.getElem?_insert, apart]
    rw [now, kept_held paired, paired.agree]
    by_cases here : offset = entered
    · simp [here, same, Ne.symm same]
    · simp [here]

end RecordStore.ValueIndex
