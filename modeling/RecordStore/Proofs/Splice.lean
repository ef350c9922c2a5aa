import RecordStore.Bytes

namespace RecordStore

def part (bytes : Bytes) (pos length : Nat) : Bytes := (bytes.drop pos).take length

def splice (bytes : Bytes) (pos : Nat) (fresh : Bytes) : Bytes :=
  bytes.take pos ++ fresh ++ bytes.drop (pos + fresh.length)

theorem part_get (bytes : Bytes) (pos length i : Nat) :
    (part bytes pos length)[i]? = if i < length then bytes[pos + i]? else none := by
  rw [part, List.getElem?_take, List.getElem?_drop]

theorem part_length (bytes : Bytes) (pos length : Nat) (inside : pos + length ≤ bytes.length) :
    (part bytes pos length).length = length := by
  rw [part, List.length_take, List.length_drop]
  omega

theorem part_part (bytes : Bytes) (pos length inner short : Nat) (inside : inner + short ≤ length) :
    part (part bytes pos length) inner short = part bytes (pos + inner) short := by
  apply List.ext_getElem?
  intro i
  rw [part_get, part_get, part_get]
  by_cases h : i < short
  · have within : inner + i < length := by omega
    rw [if_pos h, if_pos h, if_pos within, Nat.add_assoc]
  · rw [if_neg h, if_neg h]

theorem splice_length (bytes : Bytes) (pos : Nat) (fresh : Bytes)
    (inside : pos + fresh.length ≤ bytes.length) :
    (splice bytes pos fresh).length = bytes.length := by
  rw [splice, List.length_append, List.length_append, List.length_take, List.length_drop]
  omega

theorem splice_get (bytes : Bytes) (pos : Nat) (fresh : Bytes) (i : Nat)
    (inside : pos + fresh.length ≤ bytes.length) :
    (splice bytes pos fresh)[i]? =
      if pos ≤ i ∧ i < pos + fresh.length then fresh[i - pos]? else bytes[i]? := by
  have front : (bytes.take pos).length = pos := by
    rw [List.length_take]
    omega
  rw [splice, List.append_assoc, List.getElem?_append, front]
  by_cases before : i < pos
  · have outside : ¬ (pos ≤ i ∧ i < pos + fresh.length) := by omega
    rw [if_pos before, if_neg outside, List.getElem?_take, if_pos before]
  · rw [if_neg before, List.getElem?_append]
    by_cases within : i - pos < fresh.length
    · have inner : pos ≤ i ∧ i < pos + fresh.length := by omega
      rw [if_pos within, if_pos inner]
    · have outside : ¬ (pos ≤ i ∧ i < pos + fresh.length) := by omega
      rw [if_neg within, if_neg outside, List.getElem?_drop]
      congr 1
      omega

theorem splice_same {bytes : Bytes} {pos length : Nat} (inside : pos + length ≤ bytes.length)
    (zero : ∀ byte ∈ bytes.drop pos, byte = 0) :
    splice bytes pos (List.replicate length 0) = bytes := by
  apply List.ext_getElem?
  intro i
  rw [splice_get _ _ _ _ (by rw [List.length_replicate]; exact inside), List.length_replicate]
  split
  · next covered =>
    obtain ⟨byte, known⟩ : ∃ byte, bytes[i]? = some byte :=
      ⟨_, List.getElem?_eq_getElem (Nat.lt_of_lt_of_le covered.2 inside)⟩
    have dropped : (bytes.drop pos)[i - pos]? = some byte := by
      rw [List.getElem?_drop, Nat.add_sub_cancel' covered.1, known]
    rw [known, zero byte (List.mem_of_getElem? dropped), List.getElem?_replicate,
      if_pos (Nat.sub_lt_left_of_lt_add covered.1 covered.2)]
  · rfl

theorem part_splice_apart (bytes : Bytes) (pos : Nat) (fresh : Bytes) (low length : Nat)
    (inside : pos + fresh.length ≤ bytes.length)
    (apart : low + length ≤ pos ∨ pos + fresh.length ≤ low) :
    part (splice bytes pos fresh) low length = part bytes low length := by
  apply List.ext_getElem?
  intro i
  rw [part_get, part_get, splice_get bytes pos fresh _ inside]
  by_cases h : i < length
  · have outside : ¬ (pos ≤ low + i ∧ low + i < pos + fresh.length) := by omega
    rw [if_pos h, if_pos h, if_neg outside]
  · rw [if_neg h, if_neg h]

theorem part_splice_within (bytes : Bytes) (pos : Nat) (fresh : Bytes) (inner length : Nat)
    (inside : pos + fresh.length ≤ bytes.length) (within : inner + length ≤ fresh.length) :
    part (splice bytes pos fresh) (pos + inner) length = part fresh inner length := by
  apply List.ext_getElem?
  intro i
  rw [part_get, part_get, splice_get bytes pos fresh _ inside]
  by_cases h : i < length
  · have covered : pos ≤ pos + inner + i ∧ pos + inner + i < pos + fresh.length := by omega
    have shifted : pos + inner + i - pos = inner + i := by omega
    rw [if_pos h, if_pos h, if_pos covered, shifted]
  · rw [if_neg h, if_neg h]

theorem part_whole (bytes : Bytes) : part bytes 0 bytes.length = bytes := by
  rw [part, List.drop_zero, List.take_length]

theorem part_splice (bytes : Bytes) (pos : Nat) (fresh : Bytes)
    (inside : pos + fresh.length ≤ bytes.length) :
    part (splice bytes pos fresh) pos fresh.length = fresh := by
  have whole := part_splice_within bytes pos fresh 0 fresh.length inside (by omega)
  rwa [Nat.add_zero, part_whole] at whole

theorem splice_over (bytes : Bytes) (pos : Nat) (short fresh : Bytes)
    (inside : pos + fresh.length ≤ bytes.length) (covered : short.length ≤ fresh.length) :
    splice (splice bytes pos short) pos fresh = splice bytes pos fresh := by
  have shorter : pos + short.length ≤ bytes.length := by omega
  have length := splice_length bytes pos short shorter
  apply List.ext_getElem?
  intro i
  rw [splice_get _ _ _ _ (by omega), splice_get _ _ _ _ inside, splice_get _ _ _ _ shorter]
  by_cases within : pos ≤ i ∧ i < pos + fresh.length
  · rw [if_pos within, if_pos within]
  · have outside : ¬ (pos ≤ i ∧ i < pos + short.length) := by omega
    rw [if_neg within, if_neg within, if_neg outside]

structure Outside (before after : Bytes) (pos length : Nat) : Prop where
  whole : after.length = before.length
  same : ∀ i, i < pos ∨ pos + length ≤ i → after[i]? = before[i]?

theorem outside_refl (bytes : Bytes) (pos length : Nat) : Outside bytes bytes pos length :=
  ⟨rfl, fun _ _ => rfl⟩

theorem outside_trans {a b c : Bytes} {pos length : Nat} (first : Outside a b pos length)
    (later : Outside b c pos length) : Outside a c pos length :=
  ⟨later.whole.trans first.whole, fun i out => (later.same i out).trans (first.same i out)⟩

theorem splice_outside (bytes : Bytes) (pos length inner : Nat) (fresh : Bytes)
    (within : inner + fresh.length ≤ length) (inside : pos + length ≤ bytes.length) :
    Outside bytes (splice bytes (pos + inner) fresh) pos length := by
  have room : pos + inner + fresh.length ≤ bytes.length := by omega
  refine ⟨splice_length bytes _ fresh room, fun i out => ?_⟩
  have past : ¬ (pos + inner ≤ i ∧ i < pos + inner + fresh.length) := by omega
  rw [splice_get _ _ _ _ room, if_neg past]

theorem splice_outside_first (bytes : Bytes) (pos length : Nat) (fresh : Bytes)
    (within : fresh.length ≤ length) (inside : pos + length ≤ bytes.length) :
    Outside bytes (splice bytes pos fresh) pos length := by
  have outside := splice_outside bytes pos length 0 fresh
  rw [Nat.zero_add, Nat.add_zero] at outside
  exact outside within inside

theorem part_outside {before after : Bytes} {pos length : Nat}
    (outside : Outside before after pos length) (low short : Nat)
    (apart : low + short ≤ pos ∨ pos + length ≤ low) :
    part after low short = part before low short := by
  apply List.ext_getElem?
  intro i
  rw [part_get, part_get]
  by_cases h : i < short
  · rw [if_pos h, if_pos h]
    exact outside.same _ (by omega)
  · rw [if_neg h, if_neg h]

end RecordStore
