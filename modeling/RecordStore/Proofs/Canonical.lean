import RecordStore.Proofs.History

namespace RecordStore

namespace ValueIndex

theorem holders_same {one other : Std.ExtTreeMap Value OffsetSet} (tight : Tight one)
    (firm : Tight other) (same : ∀ value offset,
      offset ∈ heldBy one value ↔ offset ∈ heldBy other value) : one = other := by
  apply Std.ExtTreeMap.ext_getElem?
  intro value
  have agree := same value
  rw [heldBy, heldBy] at agree
  cases here : one[value]? with
  | none =>
    cases there : other[value]? with
    | none => rfl
    | some offsets =>
      obtain ⟨offset, member⟩ := firm value offsets there
      rw [here, there] at agree
      exact absurd ((agree offset).mpr member) Std.ExtTreeSet.not_mem_empty
  | some offsets =>
    rw [here] at agree
    cases there : other[value]? with
    | none =>
      obtain ⟨offset, member⟩ := tight value offsets here
      rw [there] at agree
      exact absurd ((agree offset).mp member) Std.ExtTreeSet.not_mem_empty
    | some others =>
      rw [there] at agree
      exact congrArg some (Std.ExtTreeSet.ext_mem fun offset => agree offset)

variable {index twin : ValueIndex} {field : Nat} {unique : Bool} {history other : History}

theorem claims_same (tells : index.Tells field unique history) (told : twin.Tells field unique other)
    (free : unique = true → ∀ value, index.isFree value = twin.isFree value) :
    index.claimed = twin.claimed := by
  apply Std.ExtTreeSet.ext_mem
  intro value
  cases unique with
  | false =>
    rw [tells.claims, told.claims]
    simp
  | true =>
    have agree := free rfl value
    rw [isFree, isFree, Bool.not_inj_iff] at agree
    rw [← Std.ExtTreeSet.contains_iff_mem, agree, Std.ExtTreeSet.contains_iff_mem]

theorem tells_same (tells : index.Tells field unique history) (told : twin.Tells field unique other)
    (last : ∀ offset, index.value? offset = twin.value? offset)
    (free : unique = true → ∀ value, index.isFree value = twin.isFree value) : index = twin := by
  have values : index.values = twin.values := Std.ExtTreeMap.ext_getElem? fun offset => last offset
  have holders : index.holders = twin.holders := by
    apply holders_same tells.tight told.tight
    intro value offset
    rw [tells.paired.agree, told.paired.agree, values]
  have claimed := claims_same tells told free
  have about := tells.about.trans told.about.symm
  have marked := tells.marked.trans told.marked.symm
  cases index
  cases twin
  simp_all

theorem assign_comm (tells : index.Tells field unique history) {one other : UInt64}
    (apart : one ≠ other) (first second : Value) :
    (index.assign one first).assign other second = (index.assign other second).assign one first := by
  have straight := assign_tells (assign_tells tells one first) other second
  have swapped := assign_tells (assign_tells tells other second) one first
  apply tells_same straight swapped
  · intro offset
    rw [value?, value?, straight.last, swapped.last, History.last_cons, History.last_cons,
      History.last_cons, History.last_cons]
    by_cases here : offset = one
    · subst here
      simp [apart]
    · simp [here]
  · intro _ value
    rw [Bool.eq_iff_iff, tells_free straight, tells_free swapped]
    simp only [History.mem_given_cons, or_left_comm]

end ValueIndex

namespace IndexOperation

theorem runs_tell (field : Nat) (unique : Bool) (operations : List IndexOperation) (i : Nat) :
    (operations.foldl run (fun _ => { field, unique }) i).Tells field unique
      (operations.foldl note (fun _ => []) i) :=
  @runs_hold (fun index history => index.Tells field unique history) _ _
    (fun _ _ offset value tells => ValueIndex.assign_tells tells offset value) operations
    (fun _ => ValueIndex.new_tells field unique) i

theorem equal_iff_answers_agree (field : Nat) (unique : Bool)
    (operations others : List IndexOperation) (i j : Nat) :
    let index := operations.foldl run (fun _ => { field, unique }) i
    let twin := others.foldl run (fun _ => { field, unique }) j
    ((index == twin) = true ↔ (∀ offset, index.value? offset = twin.value? offset) ∧
      (unique = true → ∀ value, index.isFree value = twin.isFree value)) ∧
    ∀ (one other : UInt64) (first second : Value), one ≠ other →
      ((index.assign one first).assign other second ==
        (index.assign other second).assign one first) = true := by
  intro index twin
  have tells : index.Tells field unique _ := runs_tell field unique operations i
  have told : twin.Tells field unique _ := runs_tell field unique others j
  rw [beq_iff_eq]
  refine ⟨⟨fun same => ?_, fun shown => ?_⟩, fun one other first second apart => ?_⟩
  · rw [same]
    exact ⟨fun _ => rfl, fun _ _ => rfl⟩
  · obtain ⟨last, free⟩ := shown
    exact ValueIndex.tells_same tells told last free
  · rw [beq_iff_eq]
    exact ValueIndex.assign_comm tells apart first second

-- One record had another value before, the other one takes that value over. No query tells a copied
-- value from one that was entered, but the index still knows a value that was replaced.
theorem moved_value_entered_either_way :
    let operations : List IndexOperation :=
      [.assign 0 0 (.int32 5), .copy 1 0, .assign 1 0 (.int32 7), .assign 0 17 (.int32 7)]
    let others : List IndexOperation := [.assign 1 0 (.int32 5), .assign 1 0 (.int32 7)]
    let forgetful : List IndexOperation := [.assign 1 0 (.int32 7)]
    let index := operations.foldl run (fun _ => { field := 1, unique := true }) 1
    let twin := others.foldl run (fun _ => { field := 1, unique := true }) 1
    let other := forgetful.foldl run (fun _ => { field := 1, unique := true }) 1
    index.value? 0 = some (.int32 7) ∧
    (∀ offset, index.value? offset = twin.value? offset) ∧
    (∀ value, index.isFree value = twin.isFree value) ∧
    (index == other) = false ∧
    (0 : UInt64) ≠ 17 ∧ ((index.assign 0 (.int64 5)).assign 17 (.int32 7) ==
      (index.assign 17 (.int32 7)).assign 0 (.int64 5)) = true := by
  intro operations others forgetful index twin other
  have apart : (0 : UInt64) ≠ 17 := by decide
  have same : (index == twin) = true := by decide +kernel
  have taken : index.isFree (.int32 5) ≠ other.isFree (.int32 5) := by decide +kernel
  obtain ⟨agree, commute⟩ := equal_iff_answers_agree 1 true operations others 1 1
  obtain ⟨differ, -⟩ := equal_iff_answers_agree 1 true operations forgetful 1 1
  obtain ⟨last, free⟩ := agree.mp same
  refine ⟨by decide +kernel, last, free rfl, ?_, apart, commute 0 17 (.int64 5) (.int32 7) apart⟩
  exact Bool.eq_false_iff.mpr fun equal => taken ((differ.mp equal).2 rfl _)

end IndexOperation

end RecordStore
