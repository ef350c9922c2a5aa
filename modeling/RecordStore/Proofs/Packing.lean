import RecordStore.Layout
import RecordStore.Proofs.Action

namespace RecordStore

def FieldSlot.Sized (slot : FieldSlot) : Prop :=
  ∃ maxLength, slot.type.byteLength maxLength = .ok slot.length

theorem byte_length_small {type : FieldType} {maxLength : Option UInt32} {length : UInt64}
    (found : type.byteLength maxLength = .ok length) : length.toNat < UInt32.size := by
  cases type with
  | fixedString =>
    cases maxLength with
    | none => cases found
    | some limit =>
      rw [FieldType.byteLength] at found
      split at found
      · cases found
      · cases found
        exact limit.toNat_lt
  | varString => cases found
  | int32 | int64 | int16 | bool | char16 =>
    cases found
    decide

namespace Layout

-- How long a record is, the lengths being added up without wrapping.
def extent (layout : Layout) : Nat :=
  layout.fields.foldl (fun sum slot => sum + slot.length.toNat) Header.length.toNat

structure Packed (layout : Layout) : Prop where
  sized : ∀ (id : Nat) (slot : FieldSlot), layout.fields[id]? = some slot → slot.Sized
  behind : ∀ (id : Nat) (slot : FieldSlot), layout.fields[id]? = some slot → 8 ≤ slot.offset.toNat
  inside : ∀ (id : Nat) (slot : FieldSlot), layout.fields[id]? = some slot →
    slot.offset.toNat + slot.length.toNat ≤ layout.stride.toNat
  apart : ∀ (i j : Nat) (first second : FieldSlot), i < j → layout.fields[i]? = some first →
    layout.fields[j]? = some second → first.offset.toNat + first.length.toNat ≤ second.offset.toNat
  counter : ∀ (id : Nat) (slot : FieldSlot), layout.fields[id]? = some slot →
    slot.attrs.sequence = true → slot.type.isInteger = true ∧ slot.attrs.indexed = false
  oneKey : ∀ (i j : Nat) (first second : FieldSlot), layout.fields[i]? = some first →
    layout.fields[j]? = some second → first.attrs.key = true → second.attrs.key = true → i = j
  header : 8 ≤ layout.stride.toNat

structure Admits (layout : Layout) (field : FieldDef) : Prop where
  named : field.name ≠ ""
  fresh : ∀ slot ∈ layout.fields, slot.name ≠ field.name
  fixed : field.type ≠ .varString
  limited : field.lacksLength = false
  oneKey : field.attrs.key = true → ∀ slot ∈ layout.fields, slot.attrs.key = false
  counter : field.attrs.sequence = true → field.type.isInteger = true ∧ field.attrs.indexed = false
  unique : field.attrs.unique = true → field.attrs.indexed = true

theorem field_flaw_none {layout : Layout} {field : FieldDef}
    (flawless : layout.fieldFlaw? field = none) : layout.Admits field := by
  rw [fieldFlaw?] at flawless
  split at flawless
  · cases flawless
  rename_i named
  split at flawless
  · cases flawless
  rename_i fresh
  split at flawless
  · cases flawless
  rename_i fixed
  split at flawless
  · cases flawless
  rename_i limited
  split at flawless
  · cases flawless
  rename_i noFirst
  split at flawless
  · cases flawless
  rename_i integer
  split at flawless
  · cases flawless
  rename_i unindexed
  split at flawless
  · cases flawless
  rename_i listed
  refine ⟨named, ?_, fixed, Bool.of_not_eq_true limited, fun key slot member => ?_,
    fun sequence => ?_, fun unique => ?_⟩
  · simpa [position?] using fresh
  · rw [if_pos key, keySlot?] at noFirst
    simpa using List.find?_eq_none.mp noFirst slot member
  · simp only [sequence, true_and] at integer unindexed
    exact ⟨by simpa using integer, by simpa using unindexed⟩
  · simpa [unique] using listed

theorem flawless_of_admits {layout : Layout} {field : FieldDef} (admits : layout.Admits field) :
    layout.fieldFlaw? field = none := by
  have fresh : (layout.position? field.name).isSome = false := by
    simpa [position?] using admits.fresh
  have first : (if field.attrs.key then layout.keySlot? else none) = none := by
    split
    · rename_i key
      rw [keySlot?, List.find?_eq_none]
      intro slot member
      simp [admits.oneKey key slot member]
    · rfl
  have integer : ¬ (field.attrs.sequence = true ∧ ¬ field.type.isInteger = true) := fun shown =>
    shown.2 (admits.counter shown.1).1
  have unindexed : ¬ (field.attrs.sequence = true ∧ field.attrs.indexed = true) := fun shown =>
    Bool.eq_false_iff.mp (admits.counter shown.1).2 shown.2
  have listed : ¬ (field.attrs.unique = true ∧ ¬ field.attrs.indexed = true) := fun shown =>
    shown.2 (admits.unique shown.1)
  rw [fieldFlaw?, if_neg admits.named, fresh, if_neg Bool.false_ne_true, if_neg admits.fixed,
    admits.limited, if_neg Bool.false_ne_true, first]
  dsimp only
  rw [if_neg integer, if_neg unindexed, if_neg listed]

theorem append_ok {layout after : Layout} {field : FieldDef}
    (appended : layout.append field = .ok after) :
    ∃ length, field.type.byteLength field.maxLength = .ok length ∧ layout.Admits field ∧
      after = { layout with
        fields := layout.fields ++ [{
          name := field.name, type := field.type, offset := layout.stride, length,
          attrs := field.attrs }]
        stride := layout.stride + length } := by
  rw [append] at appended
  cases flaw : layout.fieldFlaw? field with
  | some _ =>
    rw [flaw] at appended
    cases appended
  | none =>
    rw [flaw] at appended
    obtain ⟨length, found, same⟩ := except_bind_ok.mp appended
    exact ⟨length, found, field_flaw_none flaw, (Except.ok.inj same).symm⟩

theorem placed_cases {fields : List FieldSlot} {last slot : FieldSlot} {id : Nat}
    (found : (fields ++ [last])[id]? = some slot) :
    fields[id]? = some slot ∨ (id = fields.length ∧ slot = last) := by
  rcases Nat.lt_trichotomy id fields.length with before | same | past
  · rw [List.getElem?_append_left before] at found
    exact .inl found
  · subst same
    rw [List.getElem?_concat_length] at found
    exact .inr ⟨rfl, (Option.some.inj found).symm⟩
  · rw [List.getElem?_eq_none (by simp; omega)] at found
    cases found

theorem append_extent {layout after : Layout} {field : FieldDef}
    (appended : layout.append field = .ok after) :
    layout.extent ≤ after.extent ∧ after.extent ≤ layout.extent + UInt32.size := by
  obtain ⟨length, found, -, rfl⟩ := append_ok appended
  have short := byte_length_small found
  simp only [extent, List.foldl_append, List.foldl_cons, List.foldl_nil]
  omega

theorem append_packed {layout after : Layout} {field : FieldDef}
    (appended : layout.append field = .ok after) (packed : layout.Packed)
    (even : layout.stride.toNat = layout.extent) (room : after.extent < UInt64.size) :
    after.Packed ∧ after.stride.toNat = after.extent := by
  obtain ⟨length, found, admitted, rfl⟩ := append_ok appended
  simp only [extent, List.foldl_append, List.foldl_cons, List.foldl_nil] at even room ⊢
  rw [← even] at room ⊢
  have stride : (layout.stride + length).toNat = layout.stride.toNat + length.toNat := by
    rw [UInt64.toNat_add]
    exact Nat.mod_eq_of_lt room
  have bound {id slot} (placed : layout.fields[id]? = some slot) : id < layout.fields.length :=
    (List.getElem?_eq_some_iff.mp placed).1
  have header := packed.header
  refine ⟨⟨?_, ?_, ?_, ?_, ?_, ?_, ?_⟩, stride⟩
  · intro id slot at_id
    rcases placed_cases at_id with old | ⟨-, rfl⟩
    · exact packed.sized id slot old
    · exact ⟨field.maxLength, found⟩
  · intro id slot at_id
    rcases placed_cases at_id with old | ⟨-, rfl⟩
    · exact packed.behind id slot old
    · exact header
  · intro id slot at_id
    dsimp only
    rcases placed_cases at_id with old | ⟨-, rfl⟩
    · have := packed.inside id slot old
      omega
    · dsimp only
      omega
  · intro i j first second less at_i at_j
    rcases placed_cases at_i with oldFirst | ⟨lastFirst, rfl⟩ <;>
      rcases placed_cases at_j with oldSecond | ⟨lastSecond, rfl⟩
    · exact packed.apart i j first second less oldFirst oldSecond
    · exact packed.inside i first oldFirst
    · have := bound oldSecond
      omega
    · omega
  · intro id slot at_id
    rcases placed_cases at_id with old | ⟨-, rfl⟩
    · exact packed.counter id slot old
    · exact admitted.counter
  · intro i j first second at_i at_j keyFirst keySecond
    rcases placed_cases at_i with oldFirst | ⟨lastFirst, rfl⟩ <;>
      rcases placed_cases at_j with oldSecond | ⟨lastSecond, rfl⟩
    · exact packed.oneKey i j first second oldFirst oldSecond keyFirst keySecond
    · have := admitted.oneKey keySecond first (List.mem_of_getElem? oldFirst)
      simp [this] at keyFirst
    · have := admitted.oneKey keyFirst second (List.mem_of_getElem? oldSecond)
      simp [this] at keySecond
    · omega
  · dsimp only
    omega

theorem bare_packed (schema : Schema) : (bare schema).Packed where
  sized := by simp [bare]
  behind := by simp [bare]
  inside := by simp [bare]
  apart := by simp [bare]
  counter := by simp [bare]
  oneKey := by simp [bare]
  header := Nat.le_refl 8

theorem fold_extent (fields : List FieldDef) (layout after : Layout)
    (built : fields.foldlM append layout = .ok after) :
    layout.extent ≤ after.extent ∧
      after.extent ≤ layout.extent + fields.length * UInt32.size := by
  induction fields generalizing layout with
  | nil =>
    cases built
    exact ⟨Nat.le_refl _, Nat.le_add_right _ _⟩
  | cons field rest ih =>
    rw [List.foldlM_cons] at built
    obtain ⟨middle, first, later⟩ := except_bind_ok.mp built
    obtain ⟨longer, short⟩ := append_extent first
    obtain ⟨grown, few⟩ := ih middle later
    rw [List.length_cons, Nat.succ_mul]
    omega

theorem fold_packed (fields : List FieldDef) (layout after : Layout)
    (built : fields.foldlM append layout = .ok after) (packed : layout.Packed)
    (even : layout.stride.toNat = layout.extent) (room : after.extent < UInt64.size) :
    after.Packed ∧ after.stride.toNat = after.extent := by
  induction fields generalizing layout with
  | nil =>
    cases built
    exact ⟨packed, even⟩
  | cons field rest ih =>
    rw [List.foldlM_cons] at built
    obtain ⟨middle, first, later⟩ := except_bind_ok.mp built
    have grown := (fold_extent rest middle after later).1
    obtain ⟨middlePacked, middleEven⟩ :=
      append_packed first packed even (Nat.lt_of_le_of_lt grown room)
    exact ih middle later middlePacked middleEven

theorem build_ok {schema : Schema} {layout : Layout} (built : build schema = .ok layout) :
    schema.fields.foldlM append (bare schema) = .ok layout := by
  rw [build] at built
  obtain ⟨placed, folded, rest⟩ := except_bind_ok.mp built
  split at rest
  · cases rest
  · cases rest
    exact folded

theorem build_packed {schema : Schema} {layout : Layout} (built : build schema = .ok layout)
    (room : layout.extent < UInt64.size) :
    layout.Packed ∧ layout.stride.toNat = layout.extent :=
  fold_packed schema.fields (bare schema) layout (build_ok built) (bare_packed schema) rfl room

theorem build_wide {schema : Schema} {layout : Layout} (built : build schema = .ok layout)
    {padding : Nat} (wide : layout.extent + padding < UInt64.size) :
    layout.Packed ∧ layout.stride.toNat + padding < UInt64.size := by
  obtain ⟨packed, stride⟩ := build_packed built (Nat.lt_of_le_of_lt (Nat.le_add_right _ _) wide)
  rw [stride]
  exact ⟨packed, wide⟩

theorem build_short {schema : Schema} {layout : Layout} (built : build schema = .ok layout) :
    layout.stride ≤ maxStride := by
  rw [build] at built
  obtain ⟨placed, -, rest⟩ := except_bind_ok.mp built
  split at rest
  · cases rest
  · rename_i flawless
    cases rest
    rw [recordFlaw?] at flawless
    split at flawless
    · cases flawless
    · split at flawless
      · cases flawless
      · rename_i short
        exact UInt64.not_lt.mp short

-- Only the lengths of 2^32 fields or more could add up to more than fits in a word.
theorem build_extent {schema : Schema} {layout : Layout} (built : build schema = .ok layout)
    (few : schema.fields.length < UInt32.size) : layout.extent < UInt64.size := by
  obtain ⟨-, short⟩ := fold_extent schema.fields (bare schema) layout (build_ok built)
  have start : (bare schema).extent = 8 := rfl
  rw [start] at short
  rw [UInt32.size] at few short
  rw [UInt64.size]
  omega

theorem build_stride {schema : Schema} {layout : Layout} (built : build schema = .ok layout)
    (few : schema.fields.length < UInt32.size) : layout.stride.toNat = layout.extent :=
  (build_packed built (build_extent built few)).2

end Layout

end RecordStore
