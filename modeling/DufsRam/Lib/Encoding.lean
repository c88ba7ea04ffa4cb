import Mathlib.Data.List.Basic
import Mathlib.Data.List.Induction
import Mathlib.Tactic.Ring

/-!
# Bytes and their textual form

Numbers as bytes in big-endian order, and the URL-safe base 64 encoding of bytes without padding.
-/

/-- Bytes of a fixed number. -/
abbrev ByteBlock (n : ℕ) : Type := { l : List UInt8 // l.length = n }

namespace BigEndian

/-- The last `k` bytes of a number. -/
def bytes : ℕ → ℕ → List UInt8
  | 0, _ => []
  | k + 1, n => bytes k (n / 256) ++ [UInt8.ofNat n]

/-- The number that bytes stand for. -/
def number (l : List UInt8) : ℕ := l.foldl (fun n b => n * 256 + b.toNat) 0

@[simp] lemma length_bytes (k n : ℕ) : (bytes k n).length = k := by
  induction k generalizing n with
  | zero => rfl
  | succ k ih => rw [bytes, List.length_append, ih, List.length_singleton]

lemma number_append (l : List UInt8) (b : UInt8) :
    number (l ++ [b]) = number l * 256 + b.toNat := by
  rw [number, List.foldl_append]
  rfl

lemma number_bytes (k n : ℕ) : number (bytes k n) = n % 256 ^ k := by
  induction k generalizing n with
  | zero => rw [pow_zero, Nat.mod_one, bytes, number, List.foldl_nil]
  | succ k ih =>
    have hspl : n % 256 ^ (k + 1) = n % 256 + 256 * (n / 256 % 256 ^ k) := by
      rw [pow_succ', Nat.mod_mul]
    rw [bytes, number_append, ih, UInt8.toNat_ofNat', hspl]
    omega

/-- Bytes are those of the number they stand for. -/
lemma bytes_number (l : List UInt8) : bytes l.length (number l) = l := by
  induction l using List.reverseRecOn with
  | nil => rfl
  | append_singleton l b ih =>
    have hlt := b.toNat_lt
    have hdiv : (number l * 256 + b.toNat) / 256 = number l := by omega
    have hlast : UInt8.ofNat (number l * 256 + b.toNat) = b := by
      apply UInt8.toNat_inj.mp
      rw [UInt8.toNat_ofNat', Nat.mul_add_mod_of_lt hlt]
    rw [List.length_append, List.length_singleton, bytes, number_append, hdiv, ih, hlast]

end BigEndian

namespace Base64

/-- The letters, digits, the hyphen and the underscore. -/
def alphabet : List UInt8 :=
  [65, 66, 67, 68, 69, 70, 71, 72, 73, 74, 75, 76, 77, 78, 79, 80, 81, 82, 83, 84, 85, 86, 87, 88,
    89, 90, 97, 98, 99, 100, 101, 102, 103, 104, 105, 106, 107, 108, 109, 110, 111, 112, 113, 114,
    115, 116, 117, 118, 119, 120, 121, 122, 48, 49, 50, 51, 52, 53, 54, 55, 56, 57, 45, 95]

def symbol (n : ℕ) : UInt8 := alphabet.getD (n % 64) 0

def digit (c : UInt8) : Option ℕ := alphabet.findIdx? fun d => d == c

lemma digit_symbol_lt : ∀ n < 64, digit (symbol n) = some n := by decide +kernel

lemma digit_symbol (n : ℕ) : digit (symbol n) = some (n % 64) := by
  have hlt := Nat.mod_lt n (show 0 < 64 by decide)
  have hsymbol : symbol n = symbol (n % 64) := by rw [symbol, symbol, Nat.mod_mod]
  rw [hsymbol, digit_symbol_lt _ hlt]

/-- Three bytes make four symbols. -/
def encode : List UInt8 → List UInt8
  | [] => []
  | [a] => [symbol (a.toNat / 4), symbol (a.toNat * 16)]
  | [a, b] => [symbol (a.toNat / 4), symbol (a.toNat * 16 + b.toNat / 16), symbol (b.toNat * 4)]
  | a :: b :: c :: rest =>
    symbol (a.toNat / 4) :: symbol (a.toNat * 16 + b.toNat / 16) ::
      symbol (b.toNat * 4 + c.toNat / 64) :: symbol c.toNat :: encode rest

/-- Bits of the last symbol that belong to no byte must be zero. -/
def decode : List UInt8 → Option (List UInt8)
  | [] => some []
  | [_] => none
  | [p, q] => do
    let x ← digit p
    let y ← digit q
    if y % 16 = 0 then some [UInt8.ofNat (x * 4 + y / 16)] else none
  | [p, q, r] => do
    let x ← digit p
    let y ← digit q
    let z ← digit r
    if z % 4 = 0 then some [UInt8.ofNat (x * 4 + y / 16), UInt8.ofNat (y * 16 + z / 4)] else none
  | p :: q :: r :: s :: rest => do
    let x ← digit p
    let y ← digit q
    let z ← digit r
    let w ← digit s
    let bytes ← decode rest
    some (UInt8.ofNat (x * 4 + y / 16) :: UInt8.ofNat (y * 16 + z / 4) ::
      UInt8.ofNat (z * 64 + w) :: bytes)

lemma length_encode (l : List UInt8) : (encode l).length = (l.length * 4 + 2) / 3 := by
  fun_induction encode l with
  | case1 => rfl
  | case2 | case3 => simp only [List.length_cons, List.length_nil]
  | case4 a b c rest ih =>
    simp only [List.length_cons, ih]
    omega

/-- A byte is determined by its value modulo 256. -/
lemma ofNat_eq {a : UInt8} {n : ℕ} (h : n % 256 = a.toNat) : UInt8.ofNat n = a := by
  apply UInt8.toNat_inj.mp
  rw [UInt8.toNat_ofNat', h]

theorem decode_encode (l : List UInt8) : decode (encode l) = some l := by
  fun_induction encode l with
  | case1 => rfl
  | case2 a =>
    have ha := a.toNat_lt
    have hfst : UInt8.ofNat (a.toNat / 4 % 64 * 4 + a.toNat * 16 % 64 / 16) = a :=
      ofNat_eq (by omega)
    have hrest : a.toNat * 16 % 64 % 16 = 0 := by omega
    simp only [decode, digit_symbol, Option.bind_eq_bind, Option.bind_some, if_pos hrest, hfst]
  | case3 a b =>
    have ha := a.toNat_lt
    have hb := b.toNat_lt
    have hfst : UInt8.ofNat (a.toNat / 4 % 64 * 4 +
        (a.toNat * 16 + b.toNat / 16) % 64 / 16) = a := ofNat_eq (by omega)
    have hsnd : UInt8.ofNat ((a.toNat * 16 + b.toNat / 16) % 64 * 16 +
        b.toNat * 4 % 64 / 4) = b := ofNat_eq (by omega)
    have hrest : b.toNat * 4 % 64 % 4 = 0 := by omega
    simp only [decode, digit_symbol, Option.bind_eq_bind, Option.bind_some, if_pos hrest, hfst,
      hsnd]
  | case4 a b c rest ih =>
    have ha := a.toNat_lt
    have hb := b.toNat_lt
    have hc := c.toNat_lt
    have hfst : UInt8.ofNat (a.toNat / 4 % 64 * 4 +
        (a.toNat * 16 + b.toNat / 16) % 64 / 16) = a := ofNat_eq (by omega)
    have hsnd : UInt8.ofNat ((a.toNat * 16 + b.toNat / 16) % 64 * 16 +
        (b.toNat * 4 + c.toNat / 64) % 64 / 4) = b := ofNat_eq (by omega)
    have hthird : UInt8.ofNat ((b.toNat * 4 + c.toNat / 64) % 64 * 64 + c.toNat % 64) = c :=
      ofNat_eq (by omega)
    simp only [decode, digit_symbol, Option.bind_eq_bind, Option.bind_some, ih, hfst, hsnd, hthird]

end Base64
