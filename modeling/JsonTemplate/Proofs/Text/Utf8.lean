import JsonTemplate.Proofs.Text.CodePoint
import JsonTemplate.Text.Utf8

set_option autoImplicit false

/-!
# UTF-8 there and back

Every text without surrogates has octets, and they are decoded to the text. They begin with the mark
of the byte order only where the text does.
-/

namespace JsonTemplate.Utf8

def Whole (point : CodePoint) : Prop :=
  ∃ character, point = .scalar character

/-! ## One octet of a sequence -/

theorem toNat_ofNat {number : Nat} (small : number < 256) : (UInt8.ofNat number).toNat = number := by
  simpa using small

private theorem tail_bounds (bits : Nat) :
    (0x80 : UInt8).toNat ≤ 0x80 + bits % 64 ∧ 0x80 + bits % 64 ≤ (0xBF : UInt8).toNat := by
  change 0x80 ≤ _ ∧ _ ≤ 0xBF
  omega

/-- An octet inside a sequence brings six more bits. -/
theorem decodeFrom_tail {missing : Nat} {low high : UInt8} {before bits : Nat}
    (bounds : low.toNat ≤ 0x80 + bits % 64 ∧ 0x80 + bits % 64 ≤ high.toNat) (rest : List UInt8) :
    decodeFrom (some ⟨missing, low, high, before⟩) (.ofNat (0x80 + bits % 64) :: rest) =
      if missing ≤ 1 then (.ofNat (before * 64 + bits % 64) :: ·) <$> decodeFrom none rest
      else decodeFrom (some ⟨missing - 1, 0x80, 0xBF, before * 64 + bits % 64⟩) rest := by
  have octet : (UInt8.ofNat (0x80 + bits % 64)).toNat = 0x80 + bits % 64 :=
    toNat_ofNat (by omega)
  have inside : low ≤ UInt8.ofNat (0x80 + bits % 64) ∧ UInt8.ofNat (0x80 + bits % 64) ≤ high := by
    rwa [UInt8.le_iff_toNat_le, UInt8.le_iff_toNat_le, octet]
  rw [decodeFrom, if_pos inside, octet, Nat.add_sub_cancel_left]

private theorem decodeFrom_last {before bits : Nat} (rest : List UInt8) :
    decodeFrom (some ⟨1, 0x80, 0xBF, before⟩) (.ofNat (0x80 + bits % 64) :: rest) =
      (.ofNat (before * 64 + bits % 64) :: ·) <$> decodeFrom none rest := by
  rw [decodeFrom_tail (tail_bounds bits), if_pos (Nat.le_refl 1)]

private theorem decodeFrom_more {missing : Nat} {low high : UInt8} {before bits : Nat}
    (bounds : low.toNat ≤ 0x80 + bits % 64 ∧ 0x80 + bits % 64 ≤ high.toNat) (rest : List UInt8) :
    decodeFrom (some ⟨missing + 2, low, high, before⟩) (.ofNat (0x80 + bits % 64) :: rest) =
      decodeFrom (some ⟨missing + 1, 0x80, 0xBF, before * 64 + bits % 64⟩) rest := by
  rw [decodeFrom_tail bounds, if_neg (by omega)]
  rfl

private theorem decodeFrom_lead {number : Nat} {pending : Pending} (large : 0x80 ≤ number)
    (small : number < 256) (leads : lead? (.ofNat number) = some pending) (rest : List UInt8) :
    decodeFrom none (.ofNat number :: rest) = decodeFrom (some pending) rest := by
  have notAscii : ¬ UInt8.ofNat number < 0x80 := by
    rw [UInt8.lt_iff_toNat_lt, toNat_ofNat small]
    exact Nat.not_lt.mpr large
  rw [decodeFrom, if_neg notAscii, leads]

/-- How a sequence continues, told by the number of its first octet. -/
theorem lead?_eq {number : Nat} (small : number < 256) :
    lead? (.ofNat number) =
      if number < 0xC2 then none
      else if number < 0xE0 then some ⟨1, 0x80, 0xBF, number - 0xC0⟩
      else if number = 0xE0 then some ⟨2, 0xA0, 0xBF, 0⟩
      else if number = 0xED then some ⟨2, 0x80, 0x9F, 0xD⟩
      else if number < 0xF0 then some ⟨2, 0x80, 0xBF, number - 0xE0⟩
      else if number = 0xF0 then some ⟨3, 0x90, 0xBF, 0⟩
      else if number < 0xF4 then some ⟨3, 0x80, 0xBF, number - 0xF0⟩
      else if number = 0xF4 then some ⟨3, 0x80, 0x8F, 4⟩
      else none := by
  have octet := toNat_ofNat small
  simp only [lead?, UInt8.lt_iff_toNat_lt, ← UInt8.toNat_inj, octet]
  rfl

/-! ## One code point -/

def Decoded (octets : List UInt8) (number : Nat) : Prop :=
  ∀ rest, decodeFrom none (octets ++ rest) = (.ofNat number :: ·) <$> decodeFrom none rest

private theorem decoded_one {number : Nat} (small : number < 0x80) :
    Decoded [.ofNat number] number := by
  intro rest
  have octet := toNat_ofNat (show number < 256 by omega)
  have ascii : UInt8.ofNat number < 0x80 := by
    rw [UInt8.lt_iff_toNat_lt, octet]
    exact small
  rw [List.singleton_append, decodeFrom, if_pos ascii, octet]

private theorem decoded_two {number : Nat} (large : 0x80 ≤ number) (small : number < 0x800) :
    Decoded [.ofNat (0xC0 + number / 64), .ofNat (0x80 + number % 64)] number := by
  intro rest
  have leads : lead? (.ofNat (0xC0 + number / 64)) = some ⟨1, 0x80, 0xBF, number / 64⟩ := by
    rw [lead?_eq (by omega), if_neg (by omega), if_pos (by omega), Nat.add_sub_cancel_left]
  have bits : number / 64 * 64 + number % 64 = number := by omega
  rw [List.cons_append, List.singleton_append, decodeFrom_lead (by omega) (by omega) leads,
    decodeFrom_last, bits]

private theorem decoded_three {number : Nat} (large : 0x800 ≤ number) (small : number < 0x10000)
    (whole : number < 0xD800 ∨ 0xDFFF < number) :
    Decoded [.ofNat (0xE0 + number / 4096), .ofNat (0x80 + number / 64 % 64),
      .ofNat (0x80 + number % 64)] number := by
  intro rest
  -- Two of the first octets bound the second, against overlong forms and surrogates.
  have leads : ∃ low high, lead? (.ofNat (0xE0 + number / 4096)) =
      some ⟨2, low, high, number / 4096⟩ ∧
      low.toNat ≤ 0x80 + number / 64 % 64 ∧ 0x80 + number / 64 % 64 ≤ high.toNat := by
    rw [lead?_eq (by omega), if_neg (by omega), if_neg (by omega)]
    by_cases first : number / 4096 = 0
    · refine ⟨0xA0, 0xBF, by rw [first]; rfl, ?_⟩
      change 0xA0 ≤ _ ∧ _ ≤ 0xBF
      omega
    rw [if_neg (by omega)]
    by_cases last : number / 4096 = 0xD
    · refine ⟨0x80, 0x9F, by rw [last]; rfl, ?_⟩
      change 0x80 ≤ _ ∧ _ ≤ 0x9F
      omega
    · rw [if_neg (by omega), if_pos (by omega), Nat.add_sub_cancel_left]
      exact ⟨0x80, 0xBF, rfl, tail_bounds (number / 64)⟩
  obtain ⟨low, high, led, bounds⟩ := leads
  have bits : (number / 4096 * 64 + number / 64 % 64) * 64 + number % 64 = number := by omega
  rw [List.cons_append, List.cons_append, List.singleton_append,
    decodeFrom_lead (by omega) (by omega) led, decodeFrom_more bounds, decodeFrom_last, bits]

private theorem decoded_four {number : Nat} (large : 0x10000 ≤ number) (small : number < 0x110000) :
    Decoded [.ofNat (0xF0 + number / 262144), .ofNat (0x80 + number / 4096 % 64),
      .ofNat (0x80 + number / 64 % 64), .ofNat (0x80 + number % 64)] number := by
  intro rest
  -- Here too, against overlong forms and numbers that are too large.
  have leads : ∃ low high, lead? (.ofNat (0xF0 + number / 262144)) =
      some ⟨3, low, high, number / 262144⟩ ∧
      low.toNat ≤ 0x80 + number / 4096 % 64 ∧ 0x80 + number / 4096 % 64 ≤ high.toNat := by
    rw [lead?_eq (by omega), if_neg (by omega), if_neg (by omega), if_neg (by omega),
      if_neg (by omega), if_neg (by omega)]
    by_cases first : number / 262144 = 0
    · refine ⟨0x90, 0xBF, by rw [first]; rfl, ?_⟩
      change 0x90 ≤ _ ∧ _ ≤ 0xBF
      omega
    rw [if_neg (by omega)]
    by_cases last : number / 262144 = 4
    · refine ⟨0x80, 0x8F, by rw [last]; rfl, ?_⟩
      change 0x80 ≤ _ ∧ _ ≤ 0x8F
      omega
    · rw [if_pos (by omega), Nat.add_sub_cancel_left]
      exact ⟨0x80, 0xBF, rfl, tail_bounds (number / 4096)⟩
  obtain ⟨low, high, led, bounds⟩ := leads
  have bits : ((number / 262144 * 64 + number / 4096 % 64) * 64 + number / 64 % 64) * 64 +
      number % 64 = number := by omega
  rw [List.cons_append, List.cons_append, List.cons_append, List.singleton_append,
    decodeFrom_lead (by omega) (by omega) led, decodeFrom_more bounds,
    decodeFrom_more (tail_bounds _), decodeFrom_last, bits]

/-- A code point that is no surrogate has octets, and they are decoded to it. -/
theorem encodePoint?_decoded (character : Char) :
    ∃ octets, encodePoint? (.scalar character) = some octets ∧
      Decoded octets character.toNat := by
  have valid : character.toNat < 0xD800 ∨ 0xDFFF < character.toNat ∧ character.toNat < 0x110000 :=
    character.valid
  rw [encodePoint?]
  dsimp only
  split
  · next small => exact ⟨_, rfl, decoded_one small⟩
  split
  · next large small => exact ⟨_, rfl, decoded_two (by omega) small⟩
  split
  · next _ large small => exact ⟨_, rfl, decoded_three (by omega) small (by omega)⟩
  · next large => exact ⟨_, rfl, decoded_four (by omega) (by omega)⟩

/-! ## Whole texts -/

theorem encode?_decoded {text : Text} (whole : ∀ point ∈ text, Whole point) :
    ∃ content, encode? text = some content ∧ decode content = .ok text := by
  induction text with
  | nil => exact ⟨[], rfl, rfl⟩
  | cons point text ih =>
      obtain ⟨⟨character, rfl⟩, others⟩ := List.forall_mem_cons.mp whole
      obtain ⟨octets, encoded, decoded⟩ := encodePoint?_decoded character
      obtain ⟨content, further, read⟩ := ih others
      refine ⟨octets ++ content, by rw [encode?, encoded, further]; rfl, ?_⟩
      have same : CodePoint.ofNat character.toNat = .scalar character :=
        CodePoint.ofNat_value (.scalar character)
      rw [decode] at read ⊢
      rw [decoded, read, same]
      rfl

/-- Octets that are decoded to a text without a mark in front have none in front either. -/
theorem dropMark_eq {content : List UInt8} {text : Text} (read : decode content = .ok text)
    (unmarked : text.head? ≠ some (.scalar '\uFEFF')) : dropMark content = content := by
  unfold dropMark
  split
  · next rest =>
      have mark : Decoded [0xEF, 0xBB, 0xBF] 0xFEFF :=
        @decoded_three 0xFEFF (by decide) (by decide) (by decide)
      have split := mark rest
      rw [List.cons_append, List.cons_append, List.singleton_append, ← decode, read] at split
      cases further : decodeFrom none rest with
      | error fault =>
          rw [further] at split
          cases split
      | ok others =>
          rw [further] at split
          cases split
          exact absurd rfl unmarked
  · rfl

end JsonTemplate.Utf8
