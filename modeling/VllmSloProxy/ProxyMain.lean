import VllmSloProxy.Lib.Numeral
import VllmSloProxy.HttpMessage

/-!
# Settings from the environment

`parse_size_env` and `parse_port_env` of `proxy_main.cpp`.  The limits of the proxy and its ports
are read with them.
-/

namespace VllmSloProxy

open Numeral

variable {α : Type}

/-- What both functions do with what `getenv` finds; any exception gives the fallback. -/
def parseEnv (narrow : UInt64 → α) (value : Option Bytes) (fallback : α) : α :=
  match value with
  | none => fallback
  | some text =>
      match stoull text with
      | .ok n => narrow n
      | .error _ => fallback

def parseSizeEnv (value : Option Bytes) (fallback : UInt64) : UInt64 := parseEnv id value fallback

/-- `static_cast<unsigned short>` keeps the low 16 bits. -/
def parsePortEnv (value : Option Bytes) (fallback : UInt16) : UInt16 :=
  parseEnv UInt64.toUInt16 value fallback

/-- A setting is the fallback, or the number that the whole string denotes. -/
def Literal (value : Option Bytes) (fallback result : Nat) : Prop :=
  result = fallback ∨ ∃ text ∈ value, Denotes text result

/-- The string is refused, or it is a numeral in the range of the type from its first byte to its
last; for any other the number at its front happens to be the fallback, up to the range. -/
def ReadLiterally (bits : Nat) (value : Option Bytes) (fallback : Nat) : Prop :=
  ∀ text ∈ value,
    (scan text).digits = [] ∨ 2 ^ 64 ≤ magnitude (scan text).digits ∨
    ((scan text).blank = [] ∧ (scan text).rest = [] ∧
      0 ≤ (scan text).number ∧ (scan text).number < 2 ^ bits) ∨
    (scan text).number % 2 ^ bits = fallback

theorem literal_some {text : Bytes} {fallback result : Nat} :
    Literal (some text) fallback result ↔ result = fallback ∨ Denotes text result := by
  simp only [Literal, Option.mem_def, Option.some.injEq, exists_eq_left']

/-- The number that is read denotes itself exactly when the string is a numeral in range. -/
theorem denotes_emod_iff {text : Bytes} {bits : Nat} (hne : (scan text).digits ≠ []) :
    Denotes text ((scan text).number % 2 ^ bits) ↔
      (scan text).blank = [] ∧ (scan text).rest = [] ∧
        0 ≤ (scan text).number ∧ (scan text).number < 2 ^ bits := by
  have hpos : (0 : Int) < 2 ^ bits := Int.pow_pos (by decide)
  have hlow := Int.emod_nonneg (scan text).number (Int.ne_of_gt hpos)
  have hhigh := Int.emod_lt_of_pos (scan text).number hpos
  rw [denotes_iff]
  constructor
  · rintro ⟨hblank, -, hrest, hnumber⟩
    exact ⟨hblank, hrest, hnumber ▸ hlow, hnumber ▸ hhigh⟩
  · rintro ⟨hblank, hrest, hlow, hhigh⟩
    exact ⟨hblank, hne, hrest, (Int.emod_eq_of_lt hlow hhigh).symm⟩

theorem parseEnv_literal_iff {narrow : UInt64 → α} {toNat : α → Nat} {bits : Nat}
    (hnarrow : ∀ n, toNat (narrow n) = n.toNat % 2 ^ bits) (hbits : bits ≤ 64)
    (value : Option Bytes) (fallback : α) :
    Literal value (toNat fallback) (toNat (parseEnv narrow value fallback)) ↔
      ReadLiterally bits value (toNat fallback) := by
  cases value with
  | none => exact ⟨fun _ text htext => (nomatch htext), fun _ => .inl rfl⟩
  | some text =>
      have hthrows := stoull_error_iff (s := text)
      rw [literal_some]
      unfold ReadLiterally parseEnv
      simp only [Option.mem_def, Option.some.injEq, forall_eq']
      cases hresult : stoull text with
      | error e =>
          have hrefused := hthrows.mp ⟨e, hresult⟩
          refine ⟨fun _ => ?_, fun _ => .inl rfl⟩
          rcases hrefused with hnone | hlarge
          · exact .inl hnone
          · exact .inr (.inl hlarge)
      | ok n =>
          have hpassed := mt hthrows.mpr (by rw [hresult]; exact fun h => (nomatch h))
          rw [not_or] at hpassed
          have hnumber : (toNat (narrow n) : Int) = (scan text).number % 2 ^ bits := by
            have hdvd : (2 : Int) ^ bits ∣ 2 ^ 64 := pow_dvd_pow 2 hbits
            rw [hnarrow, Int.natCast_mod, stoull_ok hresult, Int.natCast_pow]
            exact Int.emod_emod_of_dvd _ hdvd
          dsimp only
          rw [or_iff_right hpassed.1, or_iff_right hpassed.2, ← denotes_emod_iff hpassed.1,
            ← hnumber, Int.natCast_inj, or_comm]

/-- Which settings are taken literally or not at all, for every string and fallback. -/
theorem parse_env_literal_iff (value : Option Bytes) (size : UInt64) (port : UInt16) :
    (Literal value size.toNat (parseSizeEnv value size).toNat ↔
      ReadLiterally 64 value size.toNat) ∧
    (Literal value port.toNat (parsePortEnv value port).toNat ↔
      ReadLiterally 16 value port.toNat) :=
  ⟨parseEnv_literal_iff (fun n => (Nat.mod_eq_of_lt n.toNat_lt).symm) (by decide) value size,
    parseEnv_literal_iff UInt64.toNat_toUInt16 (by decide) value port⟩

/-- A negative cap becomes the largest one, a port beyond the range wraps, and a cap is read off the
front of its string. -/
theorem parse_env_third_value :
    ¬ Literal (some (bytes "-1")) 2 (parseSizeEnv (some (bytes "-1")) 2).toNat ∧
    ¬ Literal (some (bytes "65537")) 8080 (parsePortEnv (some (bytes "65537")) 8080).toNat ∧
    ¬ Literal (some (bytes "8x")) 2 (parseSizeEnv (some (bytes "8x")) 2).toNat := by
  refine ⟨?_, ?_, ?_⟩
  · rw [literal_some, denotes_iff]
    decide
  · rw [literal_some, denotes_iff]
    decide
  · rw [literal_some, denotes_iff]
    decide

end VllmSloProxy
