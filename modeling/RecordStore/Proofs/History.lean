import Mathlib.Data.Finset.Card
import Mathlib.Logic.Function.Basic
import RecordStore.Proofs.Index

namespace RecordStore

-- The newest entry comes first.
abbrev History := List (UInt64 × Value)

namespace History

def last (history : History) (offset : UInt64) : Option Value := history.lookup offset

def offsets (history : History) : Finset UInt64 := (history.map Prod.fst).toFinset

def given (history : History) : Finset Value := (history.map Prod.snd).toFinset

def held (history : History) : Finset Value :=
  ((history.map Prod.fst).filterMap history.last).toFinset

theorem last_cons (history : History) (entered offset : UInt64) (value : Value) :
    History.last ((entered, value) :: history) offset =
      if offset = entered then some value else history.last offset := by
  rw [last, List.lookup_cons]
  by_cases here : offset = entered
  · simp [here]
  · have apart : (offset == entered) = false := beq_eq_false_iff_ne.mpr here
    rw [apart, if_neg here]
    rfl

theorem mem_given_cons {history : History} {entered : UInt64} {value other : Value} :
    other ∈ History.given ((entered, value) :: history) ↔ other = value ∨ other ∈ history.given := by
  simp [given]

theorem mem_offsets {history : History} {offset : UInt64} :
    offset ∈ history.offsets ↔ ∃ value, history.last offset = some value := by
  induction history with
  | nil => simp [offsets, last]
  | cons entry rest ih =>
    obtain ⟨entered, value⟩ := entry
    rw [last_cons, offsets, List.map_cons, List.toFinset_cons, Finset.mem_insert]
    by_cases here : offset = entered
    · simp [here]
    · rw [if_neg here, ← ih]
      simp [here, offsets]

theorem mem_held {history : History} {value : Value} :
    value ∈ history.held ↔ ∃ offset, history.last offset = some value := by
  rw [held, List.mem_toFinset, List.mem_filterMap]
  constructor
  · intro found
    obtain ⟨offset, -, last⟩ := found
    exact ⟨offset, last⟩
  · intro found
    obtain ⟨offset, last⟩ := found
    exact ⟨offset, List.mem_toFinset.mp (mem_offsets.mpr ⟨value, last⟩), last⟩

end History

namespace ValueIndex

def Tight (holders : Std.ExtTreeMap Value OffsetSet) : Prop :=
  ∀ (value : Value) (offsets : OffsetSet), holders[value]? = some offsets → ∃ offset, offset ∈ offsets

theorem insert_tight {holders : Std.ExtTreeMap Value OffsetSet} (tight : Tight holders)
    (value : Value) {offsets : OffsetSet} (filled : ∃ offset, offset ∈ offsets) :
    Tight (holders.insert value offsets) := by
  intro other found held
  rw [Std.ExtTreeMap.getElem?_insert] at held
  split at held
  · cases held
    exact filled
  · exact tight other found held

theorem drop_holder_tight {holders : Std.ExtTreeMap Value OffsetSet} (tight : Tight holders)
    (value : Value) (offset : UInt64) : Tight (dropHolder holders value offset) := by
  rw [dropHolder]
  cases holders[value]? with
  | none => exact tight
  | some offsets =>
    dsimp only
    by_cases empty : (offsets.erase offset).isEmpty = true
    · intro other found held
      rw [if_pos empty, Std.ExtTreeMap.getElem?_erase] at held
      split at held
      · cases held
      · exact tight other found held
    · have filled : ∃ other, other ∈ offsets.erase offset := by
        by_contra none_left
        have none_in := Std.ExtTreeSet.eq_empty_iff_forall_not_mem.mpr (not_exists.mp none_left)
        exact empty (Std.ExtTreeSet.isEmpty_iff.mpr none_in)
      rw [if_neg empty]
      exact insert_tight tight value filled

theorem assign_tight {index : ValueIndex} (tight : Tight index.holders) (offset : UInt64)
    (value : Value) : Tight (index.assign offset value).holders := by
  have kept : Tight (index.kept offset value) := by
    rw [ValueIndex.kept]
    split
    · exact drop_holder_tight tight _ offset
    · exact tight
  exact insert_tight kept value ⟨offset, Std.ExtTreeSet.mem_insert_self⟩

structure Tells (index : ValueIndex) (field : Nat) (unique : Bool) (history : History) : Prop where
  about : index.field = field
  marked : index.unique = unique
  paired : index.Paired
  tight : Tight index.holders
  last : ∀ offset, index.values[offset]? = history.last offset
  claims : ∀ value, value ∈ index.claimed ↔ unique = true ∧ value ∈ history.given

theorem new_tells (field : Nat) (unique : Bool) : Tells { field, unique } field unique [] := by
  refine ⟨rfl, rfl, new_paired field unique, ?_, ?_, ?_⟩
  · intro value offsets held
    rw [Std.ExtTreeMap.getElem?_empty] at held
    cases held
  · intro offset
    exact Std.ExtTreeMap.getElem?_empty
  · intro value
    simp [History.given]

section Tells

variable {index : ValueIndex} {field : Nat} {unique : Bool} {history : History}

theorem assign_tells (tells : index.Tells field unique history) (offset : UInt64) (value : Value) :
    (index.assign offset value).Tells field unique ((offset, value) :: history) := by
  refine ⟨tells.about, tells.marked, assign_paired tells.paired offset value,
    assign_tight tells.tight offset value, ?_, ?_⟩
  · intro other
    rw [assign_values, History.last_cons, tells.last]
  · intro other
    have claimed : (index.assign offset value).claimed =
      if index.unique then index.claimed.insert value else index.claimed := rfl
    rw [claimed, tells.marked, History.mem_given_cons]
    have before := tells.claims other
    cases unique with
    | false => simpa using before
    | true =>
      rw [if_pos rfl, Std.ExtTreeSet.mem_insert, Std.LawfulEqCmp.compare_eq_iff_eq, before,
        eq_comm]
      simp

theorem tells_offsets (tells : index.Tells field unique history) (value : Value)
    (offset : UInt64) : offset ∈ index.offsetsOf value ↔ history.last offset = some value := by
  rw [mem_offsets_of, tells.paired.agree, tells.last]

theorem mem_holders (tells : index.Tells field unique history) (value : Value) :
    value ∈ index.holders ↔ value ∈ history.held := by
  rw [History.mem_held, Std.ExtTreeMap.mem_iff_isSome_getElem?]
  constructor
  · intro kept
    obtain ⟨offsets, held⟩ := Option.isSome_iff_exists.mp kept
    obtain ⟨offset, member⟩ := tells.tight value offsets held
    refine ⟨offset, (tells_offsets tells value offset).mp ?_⟩
    rw [offsetsOf, held]
    exact Std.ExtTreeSet.mem_toList.mpr member
  · intro found
    obtain ⟨offset, last⟩ := found
    have member := (tells_offsets tells value offset).mpr last
    cases held : index.holders[value]? with
    | some offsets => rfl
    | none =>
      rw [offsetsOf, held] at member
      cases Std.ExtTreeSet.mem_toList.mp member

theorem tells_free (tells : index.Tells field unique history) (value : Value) :
    index.isFree value = true ↔ (unique = true → value ∉ history.given) := by
  rw [isFree, Bool.not_eq_true', ← Bool.not_eq_true, Std.ExtTreeSet.contains_iff_mem,
    tells.claims, not_and]

theorem record_count (tells : index.Tells field unique history) :
    index.recordCount = history.offsets.card := by
  have once := List.toFinset_card_of_nodup index.values.nodup_keys
  rw [Std.ExtTreeMap.length_keys] at once
  rw [recordCount, ← once]
  congr 1
  ext offset
  rw [List.mem_toFinset, Std.ExtTreeMap.mem_keys, Std.ExtTreeMap.mem_iff_isSome_getElem?,
    tells.last, History.mem_offsets, Option.isSome_iff_exists]

theorem held_count (tells : index.Tells field unique history) :
    index.heldCount = history.held.card := by
  have once := List.toFinset_card_of_nodup index.holders.nodup_keys
  rw [Std.ExtTreeMap.length_keys] at once
  rw [heldCount, ← once]
  congr 1
  ext value
  rw [List.mem_toFinset, Std.ExtTreeMap.mem_keys, mem_holders tells]

theorem claimed_count (tells : index.Tells field unique history) :
    index.claimedCount = if unique then history.given.card else 0 := by
  have apart : index.claimed.toList.Nodup :=
    index.claimed.distinct_toList.imp fun differ same =>
      differ (Std.LawfulEqCmp.compare_eq_iff_eq.mpr same)
  have once := List.toFinset_card_of_nodup apart
  rw [Std.ExtTreeSet.length_toList] at once
  rw [claimedCount, ← once]
  have members : index.claimed.toList.toFinset = if unique then history.given else ∅ := by
    ext value
    rw [List.mem_toFinset, Std.ExtTreeSet.mem_toList, tells.claims]
    cases unique <;> simp
  rw [members]
  cases unique <;> rfl

end Tells

structure Answers (index : ValueIndex) (field : Nat) (unique : Bool) (history : History) :
    Prop where
  about : index.field = field
  marked : index.unique = unique
  value : ∀ offset, index.value? offset = history.last offset
  offsets : ∀ value offset, offset ∈ index.offsetsOf value ↔ history.last offset = some value
  ascending : ∀ value, (index.offsetsOf value).Pairwise (· < ·)
  records : index.recordCount = history.offsets.card
  -- Each value that is held is kept once, and no other value is kept.
  kept : ∀ value, value ∈ index.holders ↔ value ∈ history.held
  held : index.heldCount = history.held.card
  free : ∀ value, index.isFree value = true ↔ (unique = true → value ∉ history.given)
  claimed : index.claimedCount = if unique then history.given.card else 0
  -- A value of one type is neither listed nor claimed as a value of another type.
  apart : ∀ offset one other, one.type ≠ other.type →
    offset ∉ (index.assign offset one).offsetsOf other ∧
      (index.assign offset one).isFree other = index.isFree other

theorem tells_answers {index : ValueIndex} {field : Nat} {unique : Bool} {history : History}
    (tells : index.Tells field unique history) : index.Answers field unique history where
  about := tells.about
  marked := tells.marked
  value := tells.last
  offsets := tells_offsets tells
  ascending := offsets_of_ascending index
  records := record_count tells
  kept := mem_holders tells
  held := held_count tells
  free := tells_free tells
  claimed := claimed_count tells
  apart := by
    intro offset one other types
    have differ : other ≠ one := by
      rintro rfl
      exact types rfl
    have entered := assign_tells tells offset one
    constructor
    · rw [tells_offsets entered, History.last_cons, if_pos rfl, Option.some.injEq]
      exact differ.symm
    · rw [Bool.eq_iff_iff, tells_free entered, tells_free tells, History.mem_given_cons,
        or_iff_right differ]

end ValueIndex

inductive IndexOperation
  | assign (target : Nat) (offset : UInt64) (value : Value)
  | copy (target source : Nat)
deriving DecidableEq, Repr

namespace IndexOperation

def run (indexes : Nat → ValueIndex) : IndexOperation → Nat → ValueIndex
  | assign target offset value =>
    Function.update indexes target ((indexes target).assign offset value)
  | copy target source => Function.update indexes target (indexes source)

def note (histories : Nat → History) : IndexOperation → Nat → History
  | assign target offset value =>
    Function.update histories target ((offset, value) :: histories target)
  | copy target source => Function.update histories target (histories source)

section Run

variable {holds : ValueIndex → History → Prop} {indexes : Nat → ValueIndex}
  {histories : Nat → History}

theorem update_holds (before : ∀ i, holds (indexes i) (histories i)) (target : Nat)
    {index : ValueIndex} {history : History} (new : holds index history) (i : Nat) :
    holds (Function.update indexes target index i) (Function.update histories target history i) := by
  by_cases here : i = target
  · subst here
    rw [Function.update_self, Function.update_self]
    exact new
  · rw [Function.update_of_ne here, Function.update_of_ne here]
    exact before i

theorem run_holds (assigned : ∀ index history offset value, holds index history →
      holds (index.assign offset value) ((offset, value) :: history))
    (before : ∀ i, holds (indexes i) (histories i)) (operation : IndexOperation) (i : Nat) :
    holds (operation.run indexes i) (operation.note histories i) := by
  cases operation with
  | assign target offset value =>
    exact update_holds before target (assigned _ _ offset value (before target)) i
  | copy target source => exact update_holds before target (before source) i

theorem runs_hold (assigned : ∀ index history offset value, holds index history →
      holds (index.assign offset value) ((offset, value) :: history))
    (operations : List IndexOperation) (before : ∀ i, holds (indexes i) (histories i)) (i : Nat) :
    holds (operations.foldl run indexes i) (operations.foldl note histories i) := by
  induction operations generalizing indexes histories with
  | nil => exact before i
  | cons operation rest ih => exact ih (run_holds assigned before operation)

end Run

theorem answers_history (field : Nat) (unique : Bool) (operations : List IndexOperation) (i : Nat) :
    (operations.foldl run (fun _ => { field, unique }) i).Answers field unique
      (operations.foldl note (fun _ => []) i) := by
  have tells := runs_hold
    (fun index history offset value (tells : index.Tells field unique history) =>
      ValueIndex.assign_tells tells offset value)
    operations (fun _ => ValueIndex.new_tells field unique) i
  exact ValueIndex.tells_answers tells

end IndexOperation

end RecordStore
