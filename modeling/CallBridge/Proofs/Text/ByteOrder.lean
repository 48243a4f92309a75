import CallBridge.Text.Bytes
import Mathlib.Algebra.Group.Nat.Defs
import Mathlib.Tactic.SplitIfs

/-!
# The order of texts is the order of their bytes

Texts are compared character by character.  In UTF-8 this is the same as comparing
them byte by byte.

The encoding of a character is a first byte and up to three further bytes, six bits of
its number in each.  `firstByte` and `furtherCount` say which first byte and how many
further ones, and `furtherBytes` are these.

* `firstByte_lt_or`: of two numbers the smaller one has the smaller first byte, or the
  same first byte, as many further bytes, and the smaller remainder for them;
* `furtherBytes_append_lt`: a smaller remainder has smaller further bytes;
* `bytes_lt_bytes_iff`: the order of two texts is that of their bytes.
-/

namespace CallBridge.Text

/-- The bytes of a text in UTF-8. -/
def bytes (s : String) : List UInt8 :=
  s.toUTF8.data.toList

theorem bytes_eq_flatMap (s : String) : bytes s = s.toList.flatMap String.utf8EncodeChar := by
  rw [bytes, String.toUTF8_eq_toByteArray, ← String.utf8Encode_toList, List.utf8Encode,
    List.data_toByteArray]

/-! ## The bytes of a number -/

/-- The first byte of the character with a number. -/
def firstByte (n : Nat) : Nat :=
  if n ≤ 0x7f then n
  else if n ≤ 0x7ff then n / 64 % 32 + 0xc0
  else if n ≤ 0xffff then n / 4096 % 16 + 0xe0
  else n / 262144 % 8 + 0xf0

/-- How many bytes follow the first one. -/
def furtherCount (n : Nat) : Nat :=
  if n ≤ 0x7f then 0 else if n ≤ 0x7ff then 1 else if n ≤ 0xffff then 2 else 3

/-- The lowest bits of a number, six in each of `count` bytes. -/
def furtherBytes (n : Nat) : Nat → List UInt8
  | 0 => []
  | count + 1 => UInt8.ofNat (n / 64 ^ count % 64 + 0x80) :: furtherBytes n count

theorem utf8EncodeChar_eq (c : Char) :
    String.utf8EncodeChar c =
      UInt8.ofNat (firstByte c.toNat) :: furtherBytes c.toNat (furtherCount c.toNat) := by
  unfold String.utf8EncodeChar firstByte furtherCount Char.toNat
  dsimp only
  split_ifs <;> simp [furtherBytes]

/-- The first byte decides, or it is the same and what is left for the further bytes
decides. -/
theorem firstByte_lt_or {m n : Nat} (h : m < n) (hn : n < 0x110000) :
    firstByte m < firstByte n ∨
      firstByte m = firstByte n ∧ furtherCount m = furtherCount n ∧
        m % 64 ^ furtherCount n < n % 64 ^ furtherCount n := by
  unfold firstByte furtherCount
  split_ifs <;> omega

theorem firstByte_lt {n : Nat} (hn : n < 0x110000) : firstByte n < 256 := by
  unfold firstByte
  split_ifs <;> omega

/-! ## Comparing bytes -/

/-- A byte that is not greater leaves the decision to what follows only if it is the
same. -/
theorem cons_lt_cons_of_le {a b : Nat} (hle : a ≤ b) (hb : b < 256) {xs ys : List UInt8}
    (hrest : a = b → xs < ys) : UInt8.ofNat a :: xs < UInt8.ofNat b :: ys := by
  rw [List.cons_lt_cons_iff]
  rcases Nat.lt_or_eq_of_le hle with hlt | rfl
  · left
    rw [UInt8.lt_iff_toNat_lt, UInt8.toNat_ofNat', UInt8.toNat_ofNat']
    omega
  · exact Or.inr ⟨rfl, hrest rfl⟩

/-- The further bytes of a smaller remainder are smaller, whatever follows. -/
theorem furtherBytes_append_lt {m n count : Nat} (h : m % 64 ^ count < n % 64 ^ count)
    (xs ys : List UInt8) : furtherBytes m count ++ xs < furtherBytes n count ++ ys := by
  induction count with
  | zero =>
    rw [Nat.pow_zero, Nat.mod_one, Nat.mod_one] at h
    exact absurd h (Nat.lt_irrefl 0)
  | succ count ih =>
    rw [Nat.mod_pow_succ, Nat.mod_pow_succ] at h
    have hpos : 0 < 64 ^ count := Nat.pow_pos (by decide)
    have hm : m % 64 ^ count < 64 ^ count := Nat.mod_lt _ hpos
    have hn : n % 64 ^ count < 64 ^ count := Nat.mod_lt _ hpos
    have hle : m / 64 ^ count % 64 ≤ n / 64 ^ count % 64 := by
      refine Nat.le_of_not_lt fun hgt => ?_
      have hmul := Nat.mul_le_mul_left (64 ^ count) (Nat.succ_le_of_lt hgt)
      rw [Nat.mul_succ] at hmul
      omega
    refine cons_lt_cons_of_le (by omega) (by omega) fun heq => ih ?_
    have hsame : m / 64 ^ count % 64 = n / 64 ^ count % 64 := by omega
    rw [hsame] at h
    omega

/-- The bytes of a smaller character are smaller, whatever follows. -/
theorem encode_append_lt {c d : Char} (h : c < d) (xs ys : List UInt8) :
    String.utf8EncodeChar c ++ xs < String.utf8EncodeChar d ++ ys := by
  have hcd : c.toNat < d.toNat := UInt32.lt_iff_toNat_lt.mp h
  have hd : d.toNat < 0x110000 := by
    have hvalid := d.valid
    simp only [UInt32.isValidChar, Nat.isValidChar] at hvalid
    show d.val.toNat < _
    omega
  rw [utf8EncodeChar_eq, utf8EncodeChar_eq]
  rcases firstByte_lt_or hcd hd with hlt | ⟨heq, hcount, hrest⟩
  · exact cons_lt_cons_of_le (Nat.le_of_lt hlt) (firstByte_lt hd)
      fun hsame => absurd hsame (Nat.ne_of_lt hlt)
  · refine cons_lt_cons_of_le (Nat.le_of_eq heq) (firstByte_lt hd) fun _ => ?_
    rw [hcount]
    exact furtherBytes_append_lt hrest xs ys

/-! ## Texts -/

theorem flatMap_encode_lt {cs ds : List Char} (h : cs < ds) :
    cs.flatMap String.utf8EncodeChar < ds.flatMap String.utf8EncodeChar := by
  induction cs generalizing ds with
  | nil =>
    cases ds with
    | nil => exact absurd h (List.lt_irrefl [])
    | cons d ds =>
      rw [List.flatMap_nil, List.flatMap_cons, utf8EncodeChar_eq, List.cons_append]
      exact List.nil_lt_cons _ _
  | cons c cs ih =>
    cases ds with
    | nil => exact absurd h (List.not_lt_nil _)
    | cons d ds =>
      rw [List.flatMap_cons, List.flatMap_cons]
      rcases List.cons_lt_cons_iff.mp h with hlt | ⟨rfl, hrest⟩
      · exact encode_append_lt hlt _ _
      · exact List.append_left_lt (ih hrest)

/-- The order of texts is that of their bytes. -/
theorem bytes_lt_bytes_iff {s t : String} : bytes s < bytes t ↔ s < t := by
  have hmono : ∀ {a b : String}, a < b → bytes a < bytes b := by
    intro a b hab
    rw [bytes_eq_flatMap, bytes_eq_flatMap]
    exact flatMap_encode_lt hab
  refine ⟨fun hbytes => ?_, hmono⟩
  rw [← String.not_le]
  intro hle
  rcases Decidable.em (t = s) with rfl | hne
  · exact List.lt_irrefl _ hbytes
  · have hlt : t < s := String.not_le.mp fun hge => hne (String.le_antisymm hle hge)
    exact List.lt_asymm hbytes (hmono hlt)

end CallBridge.Text
