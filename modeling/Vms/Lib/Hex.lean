import Mathlib.Data.List.Basic

/-! Bytes as hexadecimal text, as Node's buffers write it (`toString('hex')`) and read it (`Buffer.from`). -/

namespace Hex

/-- The value of a digit, in either case. -/
def value (c : Char) : Option Nat :=
  if '0' ≤ c ∧ c ≤ '9' then some (c.toNat - '0'.toNat)
  else if 'a' ≤ c ∧ c ≤ 'f' then some (c.toNat - 'a'.toNat + 10)
  else if 'A' ≤ c ∧ c ≤ 'F' then some (c.toNat - 'A'.toNat + 10)
  else none

def digits (byte : UInt8) : List Char := [(byte.toNat / 16).digitChar, (byte.toNat % 16).digitChar]

def toHex (bytes : List UInt8) : String := String.ofList (bytes.flatMap digits)

/-- The bytes of the pairs of digits before the first character that is no digit. -/
def pairs : List Char → List UInt8
  | high :: low :: rest =>
    match value high, value low with
    | some h, some l => UInt8.ofNat (16 * h + l) :: pairs rest
    | _, _ => []
  | _ => []

/-- Texts with other characters than those of ASCII are outside it: of these Node reads the last byte of each code unit. -/
def fromHex (text : String) : List UInt8 := pairs text.toList

/-! ### One byte -/

theorem value_digitChar {n : Nat} (h : n < 16) : value n.digitChar = some n := by
  have hall : ∀ n < 16, value n.digitChar = some n := by decide
  exact hall n h

theorem toNat_lt_of_value {c : Char} {n : Nat} (h : value c = some n) : c.toNat < 128 := by
  have hle : c ≤ '9' ∨ c ≤ 'f' ∨ c ≤ 'F' := by
    unfold value at h
    split_ifs at h with hdigit hlower hupper
    · exact Or.inl hdigit.2
    · exact Or.inr (Or.inl hlower.2)
    · exact Or.inr (Or.inr hupper.2)
  have hnat : ∀ c' : Char, c ≤ c' → c.toNat ≤ c'.toNat := fun _ hle => hle
  rcases hle with hle | hle | hle <;> exact Nat.lt_of_le_of_lt (hnat _ hle) (by simp)

section Bytes
variable {byte : UInt8} {bytes : List UInt8}

theorem value_of_mem_digits {c : Char} (h : c ∈ digits byte) : ∃ n, value c = some n := by
  have hbyte := byte.toNat_lt
  rcases List.mem_cons.mp h with rfl | h
  · exact ⟨_, value_digitChar (by omega)⟩
  · rw [List.mem_singleton.mp h]
    exact ⟨_, value_digitChar (by omega)⟩

theorem pairs_digits (rest : List Char) : pairs (digits byte ++ rest) = byte :: pairs rest := by
  have hbyte := byte.toNat_lt
  have hhigh : value (byte.toNat / 16).digitChar = some (byte.toNat / 16) := value_digitChar (by omega)
  have hlow : value (byte.toNat % 16).digitChar = some (byte.toNat % 16) := value_digitChar (by omega)
  simp [digits, pairs, hhigh, hlow, Nat.div_add_mod]

/-! ### Texts -/

theorem fromHex_toHex (bytes : List UInt8) : fromHex (toHex bytes) = bytes := by
  rw [fromHex, toHex, String.toList_ofList]
  induction bytes with
  | nil => rfl
  | cons byte bytes ih => rw [List.flatMap_cons, pairs_digits, ih]

theorem toHex_append (bytes more : List UInt8) : toHex bytes ++ toHex more = toHex (bytes ++ more) := by
  rw [toHex, toHex, toHex, List.flatMap_append, String.ofList_append]

theorem length_toHex (bytes : List UInt8) : (toHex bytes).toList.length = 2 * bytes.length := by
  rw [toHex, String.toList_ofList]
  induction bytes with
  | nil => rfl
  | cons byte bytes ih =>
    rw [List.flatMap_cons, List.length_append, ih, List.length_cons, digits]
    simp
    omega

theorem value_of_mem {c : Char} (h : c ∈ (toHex bytes).toList) : ∃ n, value c = some n := by
  rw [toHex, String.toList_ofList, List.mem_flatMap] at h
  obtain ⟨byte, -, hdigit⟩ := h
  exact value_of_mem_digits hdigit

/-- A separator that is no digit does not occur in a hexadecimal text. -/
theorem not_mem_toHex {c : Char} (hc : value c = none) : c ∉ (toHex bytes).toList := by
  intro h
  obtain ⟨n, hn⟩ := value_of_mem h
  rw [hc] at hn
  cases hn

end Bytes
end Hex
