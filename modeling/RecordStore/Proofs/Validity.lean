import Mathlib.Algebra.GroupWithZero.Nat
import Mathlib.Data.List.Induction
import Mathlib.Data.List.Pairwise
import Mathlib.Logic.ExistsUnique
import Mathlib.Tactic.ByContra
import RecordStore.Proofs.Packing

/-!
The layout is found by going through the fields from the first to the last, so both halves of
`build_iff_valid` are inductions over the fields from the end.
-/

namespace RecordStore

def FieldDef.width (field : FieldDef) : Nat :=
  match field.type with
  | .int32 => 4
  | .int64 => 8
  | .int16 => 2
  | .bool => 1
  | .char16 => 2
  | .fixedString => (field.maxLength.getD 0).toNat
  | .varString => 0

def FieldDef.Limited (field : FieldDef) : Prop :=
  field.type = .fixedString → ∃ limit, field.maxLength = some limit ∧ 1 ≤ limit.toNat

namespace Schema

def span (fields : List FieldDef) : Nat := 8 + (fields.map FieldDef.width).sum

structure Placeable (fields : List FieldDef) : Prop where
  named : ∀ field ∈ fields, field.name ≠ ""
  distinct : fields.Pairwise fun first second => first.name ≠ second.name
  fixed : ∀ field ∈ fields, field.type ≠ .varString
  limited : ∀ field ∈ fields, field.Limited
  oneKey : fields.Pairwise fun first second =>
    ¬ (first.attrs.key = true ∧ second.attrs.key = true)
  counter : ∀ field ∈ fields, field.attrs.sequence = true →
    field.type.isInteger = true ∧ field.attrs.indexed = false
  unique : ∀ field ∈ fields, field.attrs.unique = true → field.attrs.indexed = true

structure Valid (schema : Schema) : Prop where
  placeable : Placeable schema.fields
  keyed : schema.keyed = true →
    ∃ field ∈ schema.fields, field.attrs.key = true ∧ field.type.isInteger = true
  short : span schema.fields ≤ 2 ^ 31 - 1

section Span

variable {fields : List FieldDef} {field : FieldDef}

theorem span_snoc (fields : List FieldDef) (last : FieldDef) :
    span (fields ++ [last]) = span fields + last.width := by
  simp [span, Nat.add_assoc]

theorem width_small (field : FieldDef) : field.width < UInt32.size := by
  rw [FieldDef.width]
  split
  · decide
  · decide
  · decide
  · decide
  · decide
  · exact (field.maxLength.getD 0).toNat_lt
  · decide

theorem span_bound (fields : List FieldDef) :
    span fields ≤ 8 + fields.length * (UInt32.size - 1) := by
  induction fields using List.reverseRecOn with
  | nil => exact Nat.le_refl 8
  | append_singleton fields last ih =>
    have small := width_small last
    rw [span_snoc, List.length_append, List.length_singleton, Nat.succ_mul]
    omega

theorem span_few (few : fields.length < UInt32.size) : span fields < UInt64.size := by
  have bound := span_bound fields
  rw [UInt32.size] at few bound
  rw [UInt64.size]
  omega

theorem span_covers {pos : Nat} (behind : 8 ≤ pos) (inside : pos < span fields) :
    ∃ i field, fields[i]? = some field ∧ span (fields.take i) ≤ pos ∧
      pos < span (fields.take i) + field.width := by
  induction fields using List.reverseRecOn with
  | nil => exact absurd inside (Nat.not_lt_of_le behind)
  | append_singleton fields last ih =>
    by_cases earlier : pos < span fields
    · obtain ⟨i, field, known, reached, short⟩ := ih earlier
      have few : i < fields.length := (List.getElem?_eq_some_iff.mp known).1
      refine ⟨i, field, ?_, ?_⟩
      · rw [List.getElem?_append_left few]
        exact known
      · rw [List.take_append_of_le_length (Nat.le_of_lt few)]
        exact ⟨reached, short⟩
    · refine ⟨fields.length, last, List.getElem?_concat_length, ?_⟩
      rw [List.take_left]
      rw [span_snoc] at inside
      exact ⟨Nat.le_of_not_lt earlier, inside⟩

end Span

structure Follows (earlier : List FieldDef) (field : FieldDef) : Prop where
  named : field.name ≠ ""
  fresh : ∀ other ∈ earlier, other.name ≠ field.name
  fixed : field.type ≠ .varString
  limited : field.Limited
  oneKey : field.attrs.key = true → ∀ other ∈ earlier, other.attrs.key = false
  counter : field.attrs.sequence = true → field.type.isInteger = true ∧ field.attrs.indexed = false
  unique : field.attrs.unique = true → field.attrs.indexed = true

theorem placeable_nil : Placeable [] :=
  ⟨nofun, List.Pairwise.nil, nofun, nofun, List.Pairwise.nil, nofun, nofun⟩

theorem placeable_snoc {earlier : List FieldDef} {field : FieldDef} :
    Placeable (earlier ++ [field]) ↔ Placeable earlier ∧ Follows earlier field := by
  constructor
  · intro placeable
    have first {other : FieldDef} (member : other ∈ earlier) : other ∈ earlier ++ [field] :=
      List.mem_append_left _ member
    have last : field ∈ earlier ++ [field] := List.mem_append_right _ (List.mem_singleton_self field)
    obtain ⟨distinct, -, fresh⟩ := List.pairwise_append.mp placeable.distinct
    obtain ⟨oneKey, -, keyless⟩ := List.pairwise_append.mp placeable.oneKey
    refine ⟨⟨fun other member => placeable.named other (first member), distinct,
      fun other member => placeable.fixed other (first member),
      fun other member => placeable.limited other (first member), oneKey,
      fun other member => placeable.counter other (first member),
      fun other member => placeable.unique other (first member)⟩,
      placeable.named field last, fun other member => fresh other member field (by simp),
      placeable.fixed field last, placeable.limited field last, fun key other member => ?_,
      placeable.counter field last, placeable.unique field last⟩
    have apart := keyless other member field (List.mem_singleton_self field)
    exact Bool.of_not_eq_true fun also => apart ⟨also, key⟩
  · intro shown
    obtain ⟨placeable, follows⟩ := shown
    have each {P : FieldDef → Prop} (before : ∀ other ∈ earlier, P other) (now : P field) :
        ∀ other ∈ earlier ++ [field], P other := by
      intro other member
      rcases List.mem_append.mp member with old | alone
      · exact before other old
      · rw [List.mem_singleton.mp alone]
        exact now
    have pair {R : FieldDef → FieldDef → Prop} (before : earlier.Pairwise R)
        (now : ∀ other ∈ earlier, R other field) : (earlier ++ [field]).Pairwise R := by
      refine List.pairwise_append.mpr ⟨before, List.pairwise_singleton R field, ?_⟩
      intro other member alone same
      rw [List.mem_singleton.mp same]
      exact now other member
    refine ⟨each placeable.named follows.named, pair placeable.distinct follows.fresh,
      each placeable.fixed follows.fixed, each placeable.limited follows.limited,
      pair placeable.oneKey fun other member both => ?_, each placeable.counter follows.counter,
      each placeable.unique follows.unique⟩
    rw [follows.oneKey both.2 other member] at both
    exact Bool.false_ne_true both.1

theorem key_alone {fields : List FieldDef} (placeable : Placeable fields) {first second : FieldDef}
    (member : first ∈ fields) (also : second ∈ fields) (key : first.attrs.key = true)
    (other : second.attrs.key = true) : first = second := by
  by_contra differ
  have : Std.Symm fun first second : FieldDef =>
      ¬ (first.attrs.key = true ∧ second.attrs.key = true) :=
    ⟨fun _ _ apart both => apart both.symm⟩
  exact placeable.oneKey.forall member also differ ⟨key, other⟩

end Schema
namespace Layout

open Schema

def slotOf (taken : Nat) (field : FieldDef) : FieldSlot where
  name := field.name
  type := field.type
  offset := UInt64.ofNat taken
  length := UInt64.ofNat field.width
  attrs := field.attrs

structure Lays (layout : Layout) (schema : Schema) (fields : List FieldDef) : Prop where
  shape : layout = { bare schema with fields := layout.fields, stride := layout.stride }
  count : layout.fields.length = fields.length
  stride : layout.stride = UInt64.ofNat (span fields)
  placed : ∀ (i : Nat) (field : FieldDef), fields[i]? = some field →
    layout.fields[i]? = some (slotOf (span (fields.take i)) field)

section Lays

variable {layout after : Layout} {schema : Schema} {fields : List FieldDef} {field : FieldDef}

theorem bare_lays (schema : Schema) : (bare schema).Lays schema [] :=
  ⟨rfl, rfl, rfl, nofun⟩

theorem lays_slot (lays : layout.Lays schema fields) {i : Nat} {slot : FieldSlot}
    (known : layout.fields[i]? = some slot) :
    ∃ field, fields[i]? = some field ∧ slot = slotOf (span (fields.take i)) field := by
  have few : i < fields.length := by
    rw [← lays.count]
    exact (List.getElem?_eq_some_iff.mp known).1
  have field := List.getElem?_eq_getElem few
  refine ⟨fields[i], field, ?_⟩
  have placed := lays.placed i _ field
  exact Option.some.inj (known.symm.trans placed)

theorem lays_all (lays : layout.Lays schema fields) {P : String → FieldAttrs → Prop} :
    (∀ slot ∈ layout.fields, P slot.name slot.attrs) ↔
      ∀ field ∈ fields, P field.name field.attrs := by
  constructor
  · intro slots field member
    obtain ⟨i, known⟩ := List.mem_iff_getElem?.mp member
    exact slots _ (List.mem_of_getElem? (lays.placed i field known))
  · intro all slot member
    obtain ⟨i, known⟩ := List.mem_iff_getElem?.mp member
    obtain ⟨field, listed, rfl⟩ := lays_slot lays known
    exact all field (List.mem_of_getElem? listed)

theorem limited_iff : field.lacksLength = false ↔ field.Limited := by
  rw [FieldDef.lacksLength, FieldDef.Limited]
  cases field.type with
  | fixedString =>
    cases field.maxLength with
    | none => simp
    | some limit =>
      have positive : limit ≠ 0 ↔ 1 ≤ limit.toNat := by
        rw [ne_eq, ← UInt32.toNat_inj, Nat.one_le_iff_ne_zero]
        rfl
      simp [← positive]
  | _ => simp

theorem admits_iff_follows (lays : layout.Lays schema fields) :
    layout.Admits field ↔ Follows fields field := by
  have names := lays_all lays (P := fun name _ => name ≠ field.name)
  have keys := lays_all lays (P := fun _ attrs => attrs.key = false)
  constructor
  · intro admits
    exact ⟨admits.named, names.mp admits.fresh, admits.fixed, limited_iff.mp admits.limited,
      fun key => keys.mp (admits.oneKey key), admits.counter, admits.unique⟩
  · intro follows
    exact ⟨follows.named, names.mpr follows.fresh, follows.fixed, limited_iff.mpr follows.limited,
      fun key => keys.mpr (follows.oneKey key), follows.counter, follows.unique⟩

theorem byte_length_width {length : UInt64}
    (found : field.type.byteLength field.maxLength = .ok length) :
    length = UInt64.ofNat field.width := by
  rw [FieldDef.width]
  cases type : field.type with
  | fixedString =>
    rw [type] at found
    cases limit : field.maxLength with
    | none =>
      rw [limit] at found
      cases found
    | some limit =>
      rw [limit, FieldType.byteLength] at found
      split at found
      · cases found
      · cases found
        exact UInt64.ofNat_toNat.symm
  | varString =>
    rw [type] at found
    cases found
  | int32 | int64 | int16 | bool | char16 =>
    rw [type] at found
    cases found
    rfl

theorem byte_length_runs (fixed : field.type ≠ .varString) (limited : field.Limited) :
    ∃ length, field.type.byteLength field.maxLength = .ok length := by
  cases type : field.type with
  | varString => exact absurd type fixed
  | fixedString =>
    obtain ⟨limit, given, positive⟩ := limited type
    have nonzero : limit ≠ 0 := by
      rintro rfl
      exact absurd positive (by decide)
    rw [given]
    exact ⟨_, if_neg nonzero⟩
  | int32 | int64 | int16 | bool | char16 => exact ⟨_, rfl⟩

theorem append_runs (admits : layout.Admits field) : ∃ after, layout.append field = .ok after := by
  obtain ⟨length, found⟩ := byte_length_runs admits.fixed (limited_iff.mp admits.limited)
  rw [append, flawless_of_admits admits]
  exact except_bind_runs found ⟨_, rfl⟩

theorem append_lays (lays : layout.Lays schema fields) (appended : layout.append field = .ok after) :
    after.Lays schema (fields ++ [field]) := by
  obtain ⟨length, found, -, rfl⟩ := append_ok appended
  have width := byte_length_width found
  refine ⟨?_, ?_, ?_, ?_⟩
  · rw [lays.shape]
  · simp [lays.count]
  · dsimp only
    rw [lays.stride, width, span_snoc, UInt64.ofNat_add]
  · intro i other known
    dsimp only
    rcases Nat.lt_or_ge i fields.length with before | past
    · rw [List.getElem?_append_left before] at known
      have room : i < layout.fields.length := by
        rw [lays.count]
        exact before
      rw [List.getElem?_append_left room, List.take_append_of_le_length (Nat.le_of_lt before)]
      exact lays.placed i other known
    · have last : i = fields.length := by
        have few := (List.getElem?_eq_some_iff.mp known).1
        rw [List.length_append, List.length_singleton] at few
        omega
      subst last
      rw [List.getElem?_concat_length] at known
      cases known
      rw [← lays.count, List.getElem?_concat_length, lays.count, List.take_left, lays.stride, width,
        slotOf]

theorem fold_snoc {start : Layout} :
    (fields ++ [field]).foldlM append start = .ok after ↔
      ∃ middle, fields.foldlM append start = .ok middle ∧ middle.append field = .ok after := by
  rw [List.foldlM_append, except_bind_ok]
  have single (middle : Layout) : [field].foldlM append middle = middle.append field := by
    rw [List.foldlM_cons]
    cases middle.append field <;> rfl
  simp only [single]

theorem fold_lays (schema : Schema) (fields : List FieldDef)
    (folded : fields.foldlM append (bare schema) = .ok layout) :
    layout.Lays schema fields ∧ Placeable fields := by
  induction fields using List.reverseRecOn generalizing layout with
  | nil =>
    cases folded
    exact ⟨bare_lays schema, placeable_nil⟩
  | append_singleton fields field ih =>
    obtain ⟨middle, first, last⟩ := fold_snoc.mp folded
    obtain ⟨lays, placeable⟩ := ih first
    obtain ⟨-, -, admits, -⟩ := append_ok last
    exact ⟨append_lays lays last, placeable_snoc.mpr ⟨placeable, (admits_iff_follows lays).mp admits⟩⟩

theorem fold_runs (schema : Schema) (fields : List FieldDef) (placeable : Placeable fields) :
    ∃ layout, fields.foldlM append (bare schema) = .ok layout := by
  induction fields using List.reverseRecOn with
  | nil => exact ⟨bare schema, rfl⟩
  | append_singleton fields field ih =>
    obtain ⟨earlier, follows⟩ := placeable_snoc.mp placeable
    obtain ⟨middle, first⟩ := ih earlier
    obtain ⟨lays, -⟩ := fold_lays schema fields first
    obtain ⟨after, last⟩ := append_runs ((admits_iff_follows lays).mpr follows)
    exact ⟨after, fold_snoc.mpr ⟨middle, first, last⟩⟩

theorem append_fault {fault : Fault} (failed : layout.append field = .error fault) :
    ∃ flaw, fault = .badSchema layout.name flaw := by
  rw [append] at failed
  cases flawed : layout.fieldFlaw? field with
  | some flaw =>
    rw [flawed] at failed
    cases failed
    exact ⟨flaw, rfl⟩
  | none =>
    have admits := field_flaw_none flawed
    obtain ⟨length, found⟩ := byte_length_runs admits.fixed (limited_iff.mp admits.limited)
    rw [flawed, found] at failed
    cases failed

theorem fold_fault (schema : Schema) (fields : List FieldDef) {fault : Fault}
    (failed : fields.foldlM append (bare schema) = .error fault) :
    ∃ flaw, fault = .badSchema schema.name flaw := by
  induction fields using List.reverseRecOn with
  | nil => cases failed
  | append_singleton fields field ih =>
    rw [List.foldlM_append] at failed
    rcases except_bind_error.mp failed with first | ⟨middle, first, last⟩
    · exact ih first
    · have name : middle.name = schema.name := by
        rw [(fold_lays schema fields first).1.shape]
        rfl
      rw [List.foldlM_cons] at last
      rcases except_bind_error.mp last with now | ⟨_, -, ended⟩
      · rw [← name]
        exact append_fault now
      · cases ended

theorem key_flaw_none (lays : layout.Lays schema fields) (placeable : Placeable fields) :
    layout.keyFlaw? = none ↔
      ∃ field ∈ fields, field.attrs.key = true ∧ field.type.isInteger = true := by
  rw [keyFlaw?, keySlot?]
  constructor
  · intro flawless
    split at flawless
    · cases flawless
    rename_i slot found
    split at flawless
    · rename_i integer
      obtain ⟨i, known⟩ := List.mem_iff_getElem?.mp (List.mem_of_find?_eq_some found)
      obtain ⟨field, listed, rfl⟩ := lays_slot lays known
      have key := List.find?_some found
      exact ⟨field, List.mem_of_getElem? listed, key, integer⟩
    · cases flawless
  · intro shown
    obtain ⟨field, member, key, integer⟩ := shown
    obtain ⟨i, listed⟩ := List.mem_iff_getElem?.mp member
    have there : (layout.fields.find? (·.attrs.key)).isSome = true :=
      List.find?_isSome.mpr ⟨_, List.mem_of_getElem? (lays.placed i field listed), key⟩
    obtain ⟨slot, found⟩ := Option.isSome_iff_exists.mp there
    obtain ⟨j, known⟩ := List.mem_iff_getElem?.mp (List.mem_of_find?_eq_some found)
    obtain ⟨other, also, rfl⟩ := lays_slot lays known
    have first := List.find?_some found
    cases key_alone placeable member (List.mem_of_getElem? also) key first
    rw [found]
    exact if_pos integer

theorem lays_keyed (lays : layout.Lays schema fields) : layout.keyed = schema.keyed := by
  rw [lays.shape]
  rfl

theorem lays_stride (lays : layout.Lays schema fields) (room : span fields < UInt64.size) :
    layout.stride.toNat = span fields := by
  rw [lays.stride]
  exact UInt64.toNat_ofNat_of_lt room

theorem record_flaw_none (lays : layout.Lays schema schema.fields)
    (placeable : Placeable schema.fields) (room : span schema.fields < UInt64.size) :
    layout.recordFlaw? = none ↔ schema.Valid := by
  have short : ¬ layout.stride > maxStride ↔ span schema.fields ≤ 2 ^ 31 - 1 := by
    rw [GT.gt, UInt64.lt_iff_toNat_lt, lays_stride lays room, Nat.not_lt]
    rfl
  have keyed := lays_keyed lays
  rw [recordFlaw?]
  constructor
  · intro flawless
    split at flawless
    · cases flawless
    rename_i keyless
    split at flawless
    · cases flawless
    rename_i small
    refine ⟨placeable, fun needed => ?_, short.mp small⟩
    rw [keyed, if_pos needed] at keyless
    exact (key_flaw_none lays placeable).mp keyless
  · intro valid
    have keyless : (if layout.keyed = true then layout.keyFlaw? else none) = none := by
      split
      · rename_i needed
        rw [keyed] at needed
        exact (key_flaw_none lays placeable).mpr (valid.keyed needed)
      · rfl
    rw [keyless]
    exact if_neg (short.mpr valid.short)

theorem lays_find (lays : layout.Lays schema fields) {hit : FieldSlot → Bool}
    {chosen : FieldDef → Prop} (same : ∀ taken field, hit (slotOf taken field) = true ↔ chosen field)
    (alone : fields.Pairwise fun first second => ¬ (chosen first ∧ chosen second)) (i : Nat) :
    layout.fields.findIdx? hit = some i ↔ ∃ field, fields[i]? = some field ∧ chosen field := by
  have slot {j : Nat} (few : j < layout.fields.length) (small : j < fields.length) :
      layout.fields[j] = slotOf (span (fields.take j)) fields[j] :=
    (List.getElem?_eq_some_iff.mp (lays.placed j _ (List.getElem?_eq_getElem small))).2
  rw [List.findIdx?_eq_some_iff_getElem]
  constructor
  · intro shown
    obtain ⟨few, here, -⟩ := shown
    have small : i < fields.length := by
      rw [← lays.count]
      exact few
    rw [slot few small, same] at here
    exact ⟨fields[i], List.getElem?_eq_getElem small, here⟩
  · intro shown
    obtain ⟨field, listed, here⟩ := shown
    obtain ⟨small, rfl⟩ := List.getElem?_eq_some_iff.mp listed
    have few : i < layout.fields.length := by
      rw [lays.count]
      exact small
    refine ⟨few, ?_, fun j before there => ?_⟩
    · rw [slot few small, same]
      exact here
    · have earlier : j < fields.length := Nat.lt_trans before small
      rw [slot (Nat.lt_trans before few) earlier, same] at there
      exact List.pairwise_iff_getElem.mp alone j i earlier small before ⟨there, here⟩

theorem lays_indexed (lays : layout.Lays schema fields) (i : Nat) :
    i ∈ layout.indexedPositions ↔
      ∃ field, fields[i]? = some field ∧ field.attrs.indexed = true := by
  rw [indexedPositions, positionsWith, List.mem_map]
  constructor
  · intro shown
    obtain ⟨⟨slot, _⟩, member, rfl⟩ := shown
    obtain ⟨numbered, indexed⟩ := List.mem_filter.mp member
    obtain ⟨field, listed, rfl⟩ := lays_slot lays (List.mk_mem_zipIdx_iff_getElem?.mp numbered)
    exact ⟨field, listed, indexed⟩
  · intro shown
    obtain ⟨field, listed, indexed⟩ := shown
    exact ⟨(_, i), List.mem_filter.mpr
      ⟨List.mk_mem_zipIdx_iff_getElem?.mpr (lays.placed i field listed), indexed⟩, rfl⟩

theorem positions_ascending (layout : Layout) (attrs : FieldAttrs → Bool) :
    (layout.positionsWith attrs).Pairwise (· < ·) := by
  have numbered : (layout.fields.zipIdx.map (·.2)).Pairwise (· < ·) := by
    rw [List.zipIdx_map_snd]
    exact List.pairwise_lt_range'
  rw [List.pairwise_map] at numbered
  rw [positionsWith, List.pairwise_map]
  exact numbered.filter _

end Lays

structure Realizes (layout : Layout) (schema : Schema) : Prop where
  count : layout.fields.length = schema.fields.length
  placed : ∀ (i : Nat) (field : FieldDef), schema.fields[i]? = some field →
    ∃ slot, layout.fields[i]? = some slot ∧ slot.name = field.name ∧ slot.type = field.type ∧
      slot.attrs = field.attrs ∧ slot.offset.toNat = span (schema.fields.take i) ∧
      slot.length.toNat = field.width
  stride : layout.stride.toNat = span schema.fields
  tiles : ∀ pos : Nat, 8 ≤ pos → pos < layout.stride.toNat →
    ∃! i : Nat, ∃ slot, layout.fields[i]? = some slot ∧ slot.offset.toNat ≤ pos ∧
      pos < slot.offset.toNat + slot.length.toNat
  inside : ∀ (i : Nat) (slot : FieldSlot), layout.fields[i]? = some slot →
    8 ≤ slot.offset.toNat ∧ slot.offset.toNat + slot.length.toNat ≤ layout.stride.toNat
  header : layout.header.bodyLength.toInt = layout.stride.toNat
  position : ∀ (name : String) (i : Nat), layout.position? name = some i ↔
    ∃ field, schema.fields[i]? = some field ∧ field.name = name
  ascending : layout.indexedPositions.Pairwise (· < ·)
  indexed : ∀ i : Nat, i ∈ layout.indexedPositions ↔
    ∃ field, schema.fields[i]? = some field ∧ field.attrs.indexed = true
  key : ∀ i : Nat, layout.keyPosition? = some i ↔
    ∃ field, schema.fields[i]? = some field ∧ field.attrs.key = true

section Build

variable {layout : Layout} {schema : Schema}

theorem build_laid (built : build schema = .ok layout) :
    layout.Lays schema schema.fields ∧ Placeable schema.fields ∧ layout.recordFlaw? = none := by
  rw [build] at built
  obtain ⟨placed, folded, rest⟩ := except_bind_ok.mp built
  obtain ⟨lays, placeable⟩ := fold_lays schema schema.fields folded
  split at rest
  · cases rest
  · rename_i flawless
    cases rest
    exact ⟨lays, placeable, flawless⟩

theorem build_runs (valid : schema.Valid) (room : span schema.fields < UInt64.size) :
    ∃ layout, build schema = .ok layout := by
  obtain ⟨placed, folded⟩ := fold_runs schema schema.fields valid.placeable
  obtain ⟨lays, placeable⟩ := fold_lays schema schema.fields folded
  have flawless := (record_flaw_none lays placeable room).mpr valid
  refine ⟨placed, except_bind_ok.mpr ⟨placed, folded, ?_⟩⟩
  rw [flawless]

theorem build_fault {fault : Fault} (failed : build schema = .error fault) :
    ∃ flaw, fault = .badSchema schema.name flaw := by
  rw [build] at failed
  rcases except_bind_error.mp failed with early | ⟨placed, folded, late⟩
  · exact fold_fault schema schema.fields early
  · have name : placed.name = schema.name := by
      rw [(fold_lays schema schema.fields folded).1.shape]
      rfl
    split at late
    · cases late
      rw [name]
      exact ⟨_, rfl⟩
    · cases late

theorem header_length (small : layout.stride.toNat ≤ 2 ^ 31 - 1) :
    layout.header.bodyLength.toInt = layout.stride.toNat := by
  have word : layout.stride.toUInt32.toNat = layout.stride.toNat := by
    rw [UInt64.toNat_toUInt32]
    exact Nat.mod_eq_of_lt (by omega)
  change layout.stride.toUInt32.toInt32.toInt = layout.stride.toNat
  rw [← word] at small ⊢
  exact BitVec.toInt_eq_toNat_of_lt (by change 2 * layout.stride.toUInt32.toNat < _; omega)

theorem build_realizes (built : build schema = .ok layout)
    (few : schema.fields.length < UInt32.size) : layout.Realizes schema := by
  have room := span_few few
  obtain ⟨lays, placeable, flawless⟩ := build_laid built
  obtain ⟨packed, -⟩ := build_packed built (build_extent built few)
  have valid := (record_flaw_none lays placeable room).mp flawless
  have stride := lays_stride lays room
  have placed (i : Nat) (field : FieldDef) (known : schema.fields[i]? = some field) :
      ∃ slot, layout.fields[i]? = some slot ∧ slot.name = field.name ∧ slot.type = field.type ∧
        slot.attrs = field.attrs ∧ slot.offset.toNat = span (schema.fields.take i) ∧
        slot.length.toNat = field.width := by
    have taken := span_few (Nat.lt_of_le_of_lt (List.length_take_le' i schema.fields) few)
    have width : field.width < UInt64.size := Nat.lt_trans (width_small field) (by decide)
    exact ⟨_, lays.placed i field known, rfl, rfl, rfl, UInt64.toNat_ofNat_of_lt taken,
      UInt64.toNat_ofNat_of_lt width⟩
  refine {
    count := lays.count
    placed := placed
    stride := stride
    tiles := fun pos behind short => ?_
    inside := fun i slot known => ⟨packed.behind i slot known, packed.inside i slot known⟩
    header := header_length (by rw [stride]; exact valid.short)
    position := fun name i => ?_
    ascending := positions_ascending layout _
    indexed := lays_indexed lays
    key := fun i => ?_ }
  · rw [stride] at short
    obtain ⟨i, field, known, reached, ended⟩ := span_covers behind short
    obtain ⟨slot, there, -, -, -, offset, length⟩ := placed i field known
    rw [← offset] at reached ended
    rw [← length] at ended
    refine ⟨i, ⟨slot, there, reached, ended⟩, fun j shown => ?_⟩
    obtain ⟨other, also, after, before⟩ := shown
    rcases Nat.lt_trichotomy i j with less | same | more
    · have := packed.apart i j slot other less there also
      omega
    · exact same.symm
    · have := packed.apart j i other slot more also there
      omega
  · refine lays_find lays (fun _ _ => beq_iff_eq) ?_ i
    exact placeable.distinct.imp fun differ both => differ (both.1.trans both.2.symm)
  · exact lays_find lays (fun _ _ => Iff.rfl) placeable.oneKey i

end Build

theorem build_iff_valid (schema : Schema) (few : schema.fields.length < UInt32.size) :
    ((∃ layout, build schema = .ok layout) ↔ schema.Valid) ∧
    (∀ fault, build schema = .error fault → fault.kind = .invalidArgument) ∧
    ∀ layout, build schema = .ok layout → layout.Realizes schema := by
  have room := span_few few
  refine ⟨⟨fun shown => ?_, fun valid => build_runs valid room⟩, fun fault failed => ?_,
    fun layout built => build_realizes built few⟩
  · obtain ⟨layout, built⟩ := shown
    obtain ⟨lays, placeable, flawless⟩ := build_laid built
    exact (record_flaw_none lays placeable room).mp flawless
  · obtain ⟨flaw, rfl⟩ := build_fault failed
    rfl

def labelSchema : Schema where
  name := "label"
  transactional := true
  keyed := true
  fields := [
    { name := "id", type := .int64, attrs := { key := true } },
    { name := "tag", type := .fixedString, maxLength := some 5,
      attrs := { indexed := true, unique := true } },
    { name := "live", type := .bool, attrs := { indexed := true } },
    { name := "turn", type := .int16, attrs := { sequence := true } }]

def labelLayout : Layout where
  name := "label"
  typeId := 0
  groupId := 0
  transactional := true
  keyed := true
  stride := 24
  fields := [
    { name := "id", type := .int64, offset := 8, length := 8, attrs := { key := true } },
    { name := "tag", type := .fixedString, offset := 16, length := 5,
      attrs := { indexed := true, unique := true } },
    { name := "live", type := .bool, offset := 21, length := 1, attrs := { indexed := true } },
    { name := "turn", type := .int16, offset := 22, length := 2, attrs := { sequence := true } }]

theorem label_built : build labelSchema = .ok labelLayout := by decide +kernel

theorem label_schema_valid :
    labelSchema.fields.length < UInt32.size ∧ labelSchema.Valid ∧ labelLayout.Realizes labelSchema := by
  have few : labelSchema.fields.length < UInt32.size := by decide
  obtain ⟨valid, -, realizes⟩ := build_iff_valid labelSchema few
  exact ⟨few, valid.mp ⟨labelLayout, label_built⟩, realizes labelLayout label_built⟩

end Layout

end RecordStore
