import ViewForge.Source.Tree
import ViewForge.Text.Utf8

namespace ViewForge.Text

section Decoding

variable {position place taken owed least greatest value m n : Nat} {first : UInt8} {rest : Bytes}

theorem toNat_lead (h : n < 0x100) : (UInt8.ofNat n).toNat = n := by
  rw [UInt8.toNat_ofNat', Nat.mod_eq_of_lt h]

theorem toNat_tail (m : Nat) : (UInt8.ofNat (0x80 + m % 0x40)).toNat = 0x80 + m % 0x40 :=
  toNat_lead (by omega)

theorem le_tail (m : Nat) : 0x80 ≤ 0x80 + m % 0x40 := Nat.le_add_right _ _

theorem tail_le (m : Nat) : 0x80 + m % 0x40 ≤ 0xBF := by omega

theorem leadValue_one (b : UInt8) : leadValue b 1 = b.toNat - 0xC0 := rfl

theorem leadValue_two (b : UInt8) : leadValue b 2 = b.toNat - 0xE0 := rfl

theorem leadValue_three (b : UInt8) : leadValue b 3 = b.toNat - 0xF0 := rfl

/-- What the first byte of two, of three and of four says about the bytes behind it. The second of
three has bounds of its own, which leave out the numbers of no character. -/
theorem following_of_two : ∀ m : Fin 32, 2 ≤ m.val →
    following (.ofNat (0xC0 + m)) = some (1, 0x80, 0xBF) := by decide

theorem following_of_three : ∀ m : Fin 16, following (.ofNat (0xE0 + m)) =
    some (2, if m.val = 0 then 0xA0 else 0x80, if m.val = 13 then 0x9F else 0xBF) := by decide

theorem following_of_four : ∀ m : Fin 5, following (.ofNat (0xF0 + m)) =
    some (3, if m.val = 0 then 0x90 else 0x80, if m.val = 4 then 0x8F else 0xBF) := by decide

theorem decodeFrom_first (h : following first = some (owed, least, greatest)) (howed : owed ≠ 0) :
    decodeFrom position none (first :: rest) =
      decodeFrom (position + 1)
        (some ⟨first, position, 1, owed, least, greatest, leadValue first owed⟩) rest := by
  cases owed with
  | zero => exact absurd rfl howed
  | succ owed => simp only [decodeFrom, h]

/-- A byte inside a character adds six bits to it. -/
theorem decodeFrom_tail (hleast : least ≤ 0x80 + m % 0x40)
    (hgreatest : 0x80 + m % 0x40 ≤ greatest) :
    decodeFrom position (some ⟨first, place, taken, owed, least, greatest, value⟩)
        (.ofNat (0x80 + m % 0x40) :: rest) =
      if owed = 1 then
        (decodeFrom (position + 1) none rest).map (Char.ofNat (value * 64 + m % 0x40) :: ·)
      else
        decodeFrom (position + 1)
          (some ⟨first, place, taken + 1, owed - 1, 0x80, 0xBF, value * 64 + m % 0x40⟩) rest := by
  have hmay :
      (decide (0x80 + m % 0x40 < least) || decide (greatest < 0x80 + m % 0x40)) = false := by
    rw [decide_eq_false (by omega), decide_eq_false (by omega)]
    rfl
  simp only [decodeFrom, toNat_tail, hmay, Bool.false_eq_true, if_false, beq_iff_eq,
    Nat.add_sub_cancel_left]

theorem decodeFrom_one (h : n < 0x80) :
    decodeFrom position none (.ofNat n :: rest) =
      (decodeFrom (position + 1) none rest).map (Char.ofNat n :: ·) := by
  have hfollowing : following (.ofNat n) = some (0, 0x80, 0xBF) := by
    simp only [following, toNat_lead (show n < 0x100 by omega), if_pos h]
  simp only [decodeFrom, hfollowing, toNat_lead (show n < 0x100 by omega)]

theorem decodeFrom_two (hleast : 0x80 ≤ n) (hgreatest : n < 0x800) :
    decodeFrom position none (.ofNat (0xC0 + n / 0x40) :: .ofNat (0x80 + n % 0x40) :: rest) =
      (decodeFrom (position + 2) none rest).map (Char.ofNat n :: ·) := by
  have hlead := toNat_lead (show 0xC0 + n / 0x40 < 0x100 by omega)
  have hfollowing := following_of_two ⟨n / 0x40, by omega⟩ (by dsimp only; omega)
  have hvalue : (0xC0 + n / 0x40 - 0xC0) * 64 + n % 0x40 = n := by omega
  rw [decodeFrom_first hfollowing (by decide), decodeFrom_tail (le_tail _) (tail_le _), if_pos rfl,
    leadValue_one, hlead, hvalue]

theorem decodeFrom_three (hleast : 0x800 ≤ n) (hgreatest : n < 0x10000)
    (hvalid : n < 0xD800 ∨ 0xDFFF < n) :
    decodeFrom position none (.ofNat (0xE0 + n / 0x1000) :: .ofNat (0x80 + n / 0x40 % 0x40) ::
        .ofNat (0x80 + n % 0x40) :: rest) =
      (decodeFrom (position + 3) none rest).map (Char.ofNat n :: ·) := by
  have hlead := toNat_lead (show 0xE0 + n / 0x1000 < 0x100 by omega)
  have hfollowing := following_of_three ⟨n / 0x1000, by omega⟩
  have hlow : (if n / 0x1000 = 0 then 0xA0 else 0x80) ≤ 0x80 + n / 0x40 % 0x40 := by
    split <;> omega
  have hhigh : 0x80 + n / 0x40 % 0x40 ≤ if n / 0x1000 = 13 then 0x9F else 0xBF := by
    split <;> omega
  have hvalue : ((0xE0 + n / 0x1000 - 0xE0) * 64 + n / 0x40 % 0x40) * 64 + n % 0x40 = n := by omega
  rw [decodeFrom_first hfollowing (by decide), decodeFrom_tail hlow hhigh, if_neg (by decide),
    decodeFrom_tail (le_tail _) (tail_le _), if_pos rfl, leadValue_two, hlead, hvalue]

theorem decodeFrom_four (hleast : 0x10000 ≤ n) (hgreatest : n < 0x110000) :
    decodeFrom position none (.ofNat (0xF0 + n / 0x40000) :: .ofNat (0x80 + n / 0x1000 % 0x40) ::
        .ofNat (0x80 + n / 0x40 % 0x40) :: .ofNat (0x80 + n % 0x40) :: rest) =
      (decodeFrom (position + 4) none rest).map (Char.ofNat n :: ·) := by
  have hlead := toNat_lead (show 0xF0 + n / 0x40000 < 0x100 by omega)
  have hfollowing := following_of_four ⟨n / 0x40000, by omega⟩
  have hlow : (if n / 0x40000 = 0 then 0x90 else 0x80) ≤ 0x80 + n / 0x1000 % 0x40 := by
    split <;> omega
  have hhigh : 0x80 + n / 0x1000 % 0x40 ≤ if n / 0x40000 = 4 then 0x8F else 0xBF := by
    split <;> omega
  have hvalue : (((0xF0 + n / 0x40000 - 0xF0) * 64 + n / 0x1000 % 0x40) * 64 +
      n / 0x40 % 0x40) * 64 + n % 0x40 = n := by omega
  rw [decodeFrom_first hfollowing (by decide), decodeFrom_tail hlow hhigh, if_neg (by decide),
    decodeFrom_tail (le_tail _) (tail_le _), if_neg (by decide),
    decodeFrom_tail (le_tail _) (tail_le _), if_pos rfl, leadValue_three, hlead, hvalue]

/-- The bytes of a character are read as that character. -/
theorem decodeFrom_encodeChar (position : Nat) (c : Char) (rest : Bytes) :
    decodeFrom position none (encodeChar c ++ rest) =
      (decodeFrom (position + (encodeChar c).length) none rest).map (c :: ·) := by
  have hvalid : c.toNat < 0xD800 ∨ 0xDFFF < c.toNat ∧ c.toNat < 0x110000 := c.valid
  have hchar : Char.ofNat c.toNat = c := Char.ofNat_toNat c
  simp only [encodeChar, Nat.div_one]
  split
  next h => exact (decodeFrom_one h).trans (by rw [hchar]; rfl)
  next h =>
    split
    next h' => exact (decodeFrom_two (by omega) h').trans (by rw [hchar]; rfl)
    next h' =>
      split
      next h'' => exact (decodeFrom_three (by omega) h'' (by omega)).trans (by rw [hchar]; rfl)
      next h'' => exact (decodeFrom_four (by omega) (by omega)).trans (by rw [hchar]; rfl)

end Decoding

theorem decode_encode (t : Text) : decode (encode t) = .ok t := by
  have hfrom (position : Nat) : decodeFrom position none (encode t) = .ok t := by
    induction t generalizing position with
    | nil => rfl
    | cons c t ih =>
      rw [encode, List.flatMap_cons, ← encode, decodeFrom_encodeChar, ih]
      rfl
  exact hfrom 0

theorem encode_append (s t : Text) : encode (s ++ t) = encode s ++ encode t :=
  List.flatMap_append

def byteIndex (t : Text) (n : Nat) : Nat := (encode (t.take n)).length

def bytesBetween (bytes : Bytes) (start stop : Nat) : Bytes :=
  (bytes.drop start).take (stop - start)

/-- The bytes between the places of two characters are those of the characters between. -/
theorem bytesBetween_encode (t : Text) {start stop : Nat} (h : start ≤ stop) :
    bytesBetween (encode t) (byteIndex t start) (byteIndex t stop) =
      encode (Source.slice t start stop) := by
  have hstop : t.take stop = t.take start ++ Source.slice t start stop := by
    rw [Source.slice, ← List.take_add, Nat.add_sub_cancel' h]
  have hwhole : encode t = encode (t.take start) ++
      (encode (Source.slice t start stop) ++ encode (t.drop stop)) := by
    rw [← encode_append, ← encode_append, ← List.append_assoc, ← hstop, List.take_append_drop]
  rw [bytesBetween, byteIndex, byteIndex, hstop, encode_append, List.length_append,
    Nat.add_sub_cancel_left, hwhole, List.drop_left, List.take_left]

end ViewForge.Text
