import Mathlib.Data.List.Basic

/-!
# Percent encoding

A text as characters that stand for themselves and escaped bytes. The encoder escapes each byte of the UTF-8
text that is not an unreserved character, and the decoder reads such a text back.
-/

namespace PercentEncoding

/-- Letters, digits and four marks. -/
def isUnreserved (c : Char) : Bool := c.isAlphanum || c == '-' || c == '.' || c == '_' || c == '~'

def hexDigit (n : Nat) : Char := Char.ofNat (if n < 10 then 48 + n else 55 + n)

def hexValue (c : Char) : Nat := if c.isDigit then c.toNat - 48 else c.toNat - 55

def escape (b : UInt8) : List Char := ['%', hexDigit (b.toNat / 16), hexDigit (b.toNat % 16)]

/-- Some characters as they are, and escaped bytes. -/
inductive Encoded (allowed : Char → Bool) : List Char → Prop
  | nil : Encoded allowed []
  | cons {c text} : allowed c = true → Encoded allowed text → Encoded allowed (c :: text)
  | escape {b text} : Encoded allowed text → Encoded allowed (escape b ++ text)

/-! ## Encoded texts -/

section Encoded

variable {allowed allowed' : Char → Bool} {text rest : List Char}

theorem Encoded.append (h : Encoded allowed text) (hrest : Encoded allowed rest) :
    Encoded allowed (text ++ rest) := by
  induction h with
  | nil => exact hrest
  | cons hc _ ih => exact .cons hc ih
  | escape _ ih =>
    rw [List.append_assoc]
    exact .escape ih

theorem Encoded.mono (h : Encoded allowed text) (hsub : ∀ c, allowed c = true → allowed' c = true) :
    Encoded allowed' text := by
  induction h with
  | nil => exact .nil
  | cons hc _ ih => exact .cons (hsub _ hc) ih
  | escape _ ih => exact .escape ih

theorem Encoded.of_forall (h : ∀ c ∈ text, allowed c = true) : Encoded allowed text := by
  induction text with
  | nil => exact .nil
  | cons c text ih =>
    simp only [List.forall_mem_cons] at h
    exact .cons h.1 (ih h.2)

theorem isUnreserved_hexDigit : ∀ n < 16, isUnreserved (hexDigit n) = true := by decide

theorem Encoded.mem {c : Char} (h : Encoded allowed text) (hc : c ∈ text) :
    allowed c = true ∨ c = '%' ∨ isUnreserved c = true := by
  induction h with
  | nil => simp at hc
  | cons hallowed _ ih =>
    rcases List.mem_cons.mp hc with rfl | hc
    · exact .inl hallowed
    · exact ih hc
  | @escape b text _ ih =>
    have hb := b.toNat_lt
    simp only [PercentEncoding.escape, List.cons_append, List.nil_append, List.mem_cons] at hc
    rcases hc with rfl | rfl | rfl | hc
    · exact .inr (.inl rfl)
    · exact .inr (.inr (isUnreserved_hexDigit _ (by omega)))
    · exact .inr (.inr (isUnreserved_hexDigit _ (by omega)))
    · exact ih hc

end Encoded

/-! ## An encoder and a decoder -/

def encodeByte (b : UInt8) : List Char :=
  if isUnreserved (Char.ofNat b.toNat) then [Char.ofNat b.toNat] else escape b

def encode (text : List Char) : List Char := (text.flatMap String.utf8EncodeChar).flatMap encodeByte

/-- The bytes that a text stands for. -/
def bytes : List Char → List UInt8
  | [] => []
  | [c] => String.utf8EncodeChar c
  | [c, d] => String.utf8EncodeChar c ++ String.utf8EncodeChar d
  | c :: high :: low :: rest =>
    if c = '%' then UInt8.ofNat (16 * hexValue high + hexValue low) :: bytes rest
    else String.utf8EncodeChar c ++ bytes (high :: low :: rest)

/-- Bytes that are no UTF-8 text are dropped. -/
def decode (text : List Char) : List Char :=
  ((bytes text).toByteArray.utf8Decode?.getD #[]).toList

theorem encoded_encode (text : List Char) : Encoded isUnreserved (encode text) := by
  unfold encode
  generalize text.flatMap String.utf8EncodeChar = l
  induction l with
  | nil => exact .nil
  | cons b l ih =>
    rw [List.flatMap_cons]
    unfold encodeByte
    split
    · exact .cons ‹_› ih
    · exact .escape ih

theorem bounds_of_isUnreserved {c : Char} (h : isUnreserved c = true) : 45 ≤ c.toNat ∧ c.toNat < 127 := by
  have hranges : ((decide (65 ≤ c.val ∧ c.val ≤ 90) || (97 ≤ c.val && c.val ≤ 122) ||
      (48 ≤ c.val && c.val ≤ 57)) || c == '-' || c == '.' || c == '_' || c == '~') = true := h
  simp only [Bool.or_eq_true, Bool.and_eq_true, decide_eq_true_eq, beq_iff_eq] at hranges
  rcases hranges with ((((((⟨hlow, hhigh⟩ | ⟨hlow, hhigh⟩) | ⟨hlow, hhigh⟩) | rfl) | rfl) | rfl) | rfl)
  · have : 65 ≤ c.toNat ∧ c.toNat ≤ 90 := ⟨hlow, hhigh⟩
    omega
  · have : 97 ≤ c.toNat ∧ c.toNat ≤ 122 := ⟨hlow, hhigh⟩
    omega
  · have : 48 ≤ c.toNat ∧ c.toNat ≤ 57 := ⟨hlow, hhigh⟩
    omega
  all_goals decide

theorem ne_percent_of_isUnreserved {c : Char} (h : isUnreserved c = true) : c ≠ '%' := by
  rintro rfl
  revert h
  decide

theorem utf8_of_isUnreserved {c : Char} (h : isUnreserved c = true) :
    String.utf8EncodeChar c = [UInt8.ofNat c.toNat] := by
  have hbounds := bounds_of_isUnreserved h
  have hval : c.val.toNat ≤ 127 := by
    change c.toNat ≤ 127
    omega
  unfold String.utf8EncodeChar
  simp only [hval, if_true]
  rfl

theorem hexValue_hexDigit : ∀ n < 16, hexValue (hexDigit n) = n := by decide

theorem bytes_cons {c : Char} (h : c ≠ '%') (text : List Char) :
    bytes (c :: text) = String.utf8EncodeChar c ++ bytes text := by
  match text with
  | [] => simp [bytes]
  | [d] => simp [bytes]
  | d :: e :: text => rw [bytes, if_neg h]

theorem bytes_encodeByte (b : UInt8) (rest : List Char) : bytes (encodeByte b ++ rest) = b :: bytes rest := by
  have hb := b.toNat_lt
  unfold encodeByte
  split
  · rename_i h
    have hne := ne_percent_of_isUnreserved h
    have hself : UInt8.ofNat (Char.ofNat b.toNat).toNat = b := by
      have hvalid : b.toNat.isValidChar := .inl (by omega)
      have hnat : (Char.ofNat b.toNat).toNat = b.toNat := by
        rw [Char.ofNat, dif_pos hvalid]
        rfl
      rw [hnat, UInt8.ofNat_toNat]
    simp only [List.cons_append, List.nil_append]
    rw [bytes_cons hne, utf8_of_isUnreserved h, hself]
    rfl
  · simp only [escape, List.cons_append, List.nil_append]
    rw [bytes, if_pos rfl]
    simp only [hexValue_hexDigit _ (show b.toNat / 16 < 16 by omega),
      hexValue_hexDigit _ (show b.toNat % 16 < 16 by omega), Nat.div_add_mod, UInt8.ofNat_toNat]

theorem bytes_encode (text : List Char) : bytes (encode text) = text.flatMap String.utf8EncodeChar := by
  unfold encode
  induction text.flatMap String.utf8EncodeChar with
  | nil => simp [bytes]
  | cons b l ih => rw [List.flatMap_cons, bytes_encodeByte, ih]

/-- Every text comes back. -/
theorem decode_encode (text : List Char) : decode (encode text) = text := by
  have hutf8 : (text.flatMap String.utf8EncodeChar).toByteArray.utf8Decode? = some text.toArray :=
    List.utf8Decode?_utf8Encode
  rw [decode, bytes_encode, hutf8]
  rfl

theorem encode_of_unreserved {text : List Char} (h : ∀ c ∈ text, isUnreserved c = true) :
    encode text = text := by
  unfold encode
  induction text with
  | nil => rfl
  | cons c text ih =>
    simp only [List.forall_mem_cons] at h
    have hbounds := bounds_of_isUnreserved h.1
    have hself : Char.ofNat (UInt8.ofNat c.toNat).toNat = c := by
      rw [UInt8.toNat_ofNat', Nat.mod_eq_of_lt (by omega)]
      exact Char.ofNat_toNat c
    rw [List.flatMap_cons, utf8_of_isUnreserved h.1, List.flatMap_append, ih h.2]
    simp only [List.flatMap_cons, List.flatMap_nil, List.append_nil, encodeByte, hself, h.1, if_true]
    rfl

end PercentEncoding
