import Mathlib.Algebra.Order.Ring.Int
import Mathlib.Data.List.TakeWhile
import Mathlib.Tactic.Common

/-!
# Decimal numerals and `stoull`

What `std::stoull` reads from the front of a byte string, and the numeral that a whole string is.
-/

namespace Numeral

def isSpace (b : UInt8) : Bool := b = 0x20 || 0x09 ≤ b && b ≤ 0x0d

def isDigit (b : UInt8) : Bool := 0x30 ≤ b && b ≤ 0x39

abbrev plus : UInt8 := 0x2b
abbrev minus : UInt8 := 0x2d

def magnitude (digits : List UInt8) : Nat :=
  digits.foldl (fun n b => 10 * n + (b.toNat - 0x30)) 0

/-- `s` is the numeral of `n` from its first byte to its last. -/
inductive Denotes : List UInt8 → Int → Prop where
  | unsigned {digits : List UInt8} (hdigits : digits.all isDigit = true) (hne : digits ≠ []) :
      Denotes digits (magnitude digits)
  | positive {digits : List UInt8} (hdigits : digits.all isDigit = true) (hne : digits ≠ []) :
      Denotes (plus :: digits) (magnitude digits)
  | negative {digits : List UInt8} (hdigits : digits.all isDigit = true) (hne : digits ≠ []) :
      Denotes (minus :: digits) (-magnitude digits)

/-- A string cut as `strtoull` reads it. -/
structure Scanned where
  blank : List UInt8
  sign : Option UInt8
  digits : List UInt8
  rest : List UInt8
  deriving DecidableEq, Repr

def takeSign : List UInt8 → Option UInt8 × List UInt8
  | [] => (none, [])
  | b :: s => if b = plus ∨ b = minus then (some b, s) else (none, b :: s)

def scan (s : List UInt8) : Scanned where
  blank := s.takeWhile isSpace
  sign := (takeSign (s.dropWhile isSpace)).1
  digits := (takeSign (s.dropWhile isSpace)).2.takeWhile isDigit
  rest := (takeSign (s.dropWhile isSpace)).2.dropWhile isDigit

/-- The number that the sign and the digits make. -/
def Scanned.number (c : Scanned) : Int :=
  if c.sign = some minus then -magnitude c.digits else magnitude c.digits

inductive StoullError where
  | invalidArgument
  | outOfRange
  deriving DecidableEq, Repr

/-- `std::stoull` in base ten, where `unsigned long long` has 64 bits; `std::stoul` is the same
where `unsigned long` has 64 bits too.  What follows the digits is ignored. -/
def stoull (s : List UInt8) : Except StoullError UInt64 :=
  let c := scan s
  if c.digits = [] then .error .invalidArgument
  else if 2 ^ 64 ≤ magnitude c.digits then .error .outOfRange
  else
    let n := UInt64.ofNat (magnitude c.digits)
    .ok (if c.sign = some minus then -n else n)

variable {s digits : List UInt8} {n : UInt64} {m : Int}

theorem not_isSpace_of_isDigit {b : UInt8} (h : isDigit b = true) : isSpace b = false := by
  simp only [isDigit, Bool.and_eq_true, decide_eq_true_eq, UInt8.le_iff_toNat_le] at h
  simp only [isSpace, Bool.or_eq_false_iff, Bool.and_eq_false_iff, decide_eq_false_iff_not,
    UInt8.le_iff_toNat_le, ← UInt8.toNat_inj]
  change 48 ≤ b.toNat ∧ b.toNat ≤ 57 at h
  change b.toNat ≠ 32 ∧ (¬ 9 ≤ b.toNat ∨ ¬ b.toNat ≤ 13)
  omega

theorem takeSign_of_sign {b : UInt8} (h : b = plus ∨ b = minus) (s : List UInt8) :
    takeSign (b :: s) = (some b, s) := if_pos h

theorem takeSign_of_ne {b : UInt8} (h : ¬ (b = plus ∨ b = minus)) (s : List UInt8) :
    takeSign (b :: s) = (none, b :: s) := if_neg h

theorem takeSign_eq (s : List UInt8) : (takeSign s).1.toList ++ (takeSign s).2 = s := by
  cases s with
  | nil => rfl
  | cons b s =>
      by_cases h : b = plus ∨ b = minus
      · rw [takeSign_of_sign h]
        rfl
      · rw [takeSign_of_ne h]
        rfl

theorem takeSign_cases (s : List UInt8) :
    (takeSign s).1 = none ∨ (takeSign s).1 = some plus ∨ (takeSign s).1 = some minus := by
  cases s with
  | nil => exact .inl rfl
  | cons b s =>
      by_cases h : b = plus ∨ b = minus
      · rw [takeSign_of_sign h]
        rcases h with rfl | rfl
        · exact .inr (.inl rfl)
        · exact .inr (.inr rfl)
      · rw [takeSign_of_ne h]
        exact .inl rfl

/-- The four parts make up the string. -/
theorem scan_append (s : List UInt8) :
    (scan s).blank ++ (scan s).sign.toList ++ (scan s).digits ++ (scan s).rest = s := by
  have hsign := takeSign_eq (s.dropWhile isSpace)
  unfold scan
  rw [List.append_assoc, List.takeWhile_append_dropWhile, List.append_assoc, hsign,
    List.takeWhile_append_dropWhile]

/-- Nothing precedes the sign and nothing follows the digits. -/
theorem scan_of_head (hhead : ∀ b ∈ s.head?, isSpace b = false)
    (hdigits : (takeSign s).2.all isDigit = true) :
    scan s = ⟨[], (takeSign s).1, (takeSign s).2, []⟩ := by
  have hall : ∀ b ∈ (takeSign s).2, isDigit b = true := List.all_eq_true.mp hdigits
  have hblank : s.takeWhile isSpace = [] ∧ s.dropWhile isSpace = s := by
    cases s with
    | nil => exact ⟨rfl, rfl⟩
    | cons b s =>
        have hb : isSpace b = false := hhead b rfl
        exact ⟨List.takeWhile_cons_of_neg (by simp [hb]), List.dropWhile_cons_of_neg (by simp [hb])⟩
  unfold scan
  rw [hblank.1, hblank.2, List.takeWhile_eq_self_iff.mpr hall, List.dropWhile_eq_nil_iff.mpr hall]

theorem Denotes.scan (h : Denotes s m) : (scan s).blank = [] ∧ (scan s).digits ≠ [] ∧
    (scan s).rest = [] ∧ (scan s).number = m := by
  cases h with
  | unsigned hdigits hne =>
      cases s with
      | nil => exact absurd rfl hne
      | cons b s =>
          have hb : isDigit b = true := List.all_eq_true.mp hdigits b List.mem_cons_self
          have hsign : ¬ (b = plus ∨ b = minus) := by
            rintro (rfl | rfl)
            · exact absurd hb (by decide)
            · exact absurd hb (by decide)
          have htake := takeSign_of_ne hsign s
          have hscan := scan_of_head (s := b :: s)
            (fun a ha => Option.some.inj ha ▸ not_isSpace_of_isDigit hb)
              (by rw [htake]; exact hdigits)
          rw [hscan, htake]
          exact ⟨rfl, hne, rfl, rfl⟩
  | positive hdigits hne =>
      rename_i digits
      have htake := takeSign_of_sign (.inl rfl) digits
      have hscan := scan_of_head (s := plus :: digits)
        (fun a ha => Option.some.inj ha ▸ by decide) (by rw [htake]; exact hdigits)
      rw [hscan, htake]
      exact ⟨rfl, hne, rfl, rfl⟩
  | negative hdigits hne =>
      rename_i digits
      have htake := takeSign_of_sign (.inr rfl) digits
      have hscan := scan_of_head (s := minus :: digits)
        (fun a ha => Option.some.inj ha ▸ by decide) (by rw [htake]; exact hdigits)
      rw [hscan, htake]
      exact ⟨rfl, hne, rfl, rfl⟩

theorem scan_digits_all (s : List UInt8) : (Numeral.scan s).digits.all isDigit = true :=
  List.all_takeWhile

/-- A numeral is a string that `scan` reads from its first byte to its last. -/
theorem denotes_iff : Denotes s m ↔ (scan s).blank = [] ∧ (scan s).digits ≠ [] ∧
    (scan s).rest = [] ∧ (scan s).number = m := by
  refine ⟨Denotes.scan, ?_⟩
  rintro ⟨hblank, hne, hrest, rfl⟩
  have hwhole := scan_append s
  have hdigits := scan_digits_all s
  rw [hblank, hrest, List.nil_append, List.append_nil] at hwhole
  unfold Scanned.number
  rcases takeSign_cases (s.dropWhile isSpace) with hsign | hsign | hsign
  · have hnone : (scan s).sign = none := hsign
    rw [hnone] at hwhole ⊢
    rw [if_neg (by decide)]
    conv => arg 1; rw [← hwhole]
    exact .unsigned hdigits hne
  · have hplus : (scan s).sign = some plus := hsign
    rw [hplus] at hwhole ⊢
    rw [if_neg (by decide)]
    conv => arg 1; rw [← hwhole]
    exact .positive hdigits hne
  · have hminus : (scan s).sign = some minus := hsign
    rw [hminus] at hwhole ⊢
    rw [if_pos rfl]
    conv => arg 1; rw [← hwhole]
    exact .negative hdigits hne

/-- What `stoull` returns is the number modulo `2 ^ 64`. -/
theorem stoull_ok (h : stoull s = .ok n) : (n.toNat : Int) = (scan s).number % 2 ^ 64 := by
  unfold stoull at h
  dsimp only at h
  split at h
  · cases h
  · split at h
    · cases h
    · rename_i hlt
      obtain rfl := Except.ok.inj h
      have hm : magnitude (scan s).digits % 2 ^ 64 = magnitude (scan s).digits :=
        Nat.mod_eq_of_lt (by omega)
      unfold Scanned.number
      split
      · have hsize : UInt64.size = 2 ^ 64 := rfl
        rw [UInt64.toNat_neg, UInt64.toNat_ofNat', hsize]
        omega
      · rw [UInt64.toNat_ofNat']
        omega

theorem stoull_error_iff : (∃ e, stoull s = .error e) ↔
    (scan s).digits = [] ∨ 2 ^ 64 ≤ magnitude (scan s).digits := by
  unfold stoull
  dsimp only
  split
  · rename_i hnone
    exact ⟨fun _ => .inl hnone, fun _ => ⟨_, rfl⟩⟩
  · rename_i hsome
    split
    · rename_i hlarge
      exact ⟨fun _ => .inr hlarge, fun _ => ⟨_, rfl⟩⟩
    · rename_i hsmall
      exact ⟨fun herror => (nomatch herror), fun hout => absurd hout (not_or.mpr ⟨hsome, hsmall⟩)⟩

end Numeral
