import Mathlib.Tactic.Common
import Mathlib.Tactic.IntervalCases

/-!
# JSON texts

The grammar of RFC 8259 over characters, a decoder for the inside of a string, and UTF-8, in which a
text is sent.
-/

namespace Json

-- 1. UTF-8.

def utf8 (text : List Char) : List UInt8 := text.flatMap String.utf8EncodeChar

@[simp] theorem utf8_nil : utf8 [] = [] := rfl

@[simp] theorem utf8_cons (c : Char) (text : List Char) :
    utf8 (c :: text) = String.utf8EncodeChar c ++ utf8 text := List.flatMap_cons

@[simp] theorem utf8_append (s t : List Char) : utf8 (s ++ t) = utf8 s ++ utf8 t :=
  List.flatMap_append

theorem utf8EncodeChar_of_lt {c : Char} (h : c.toNat < 0x80) :
    String.utf8EncodeChar c = [UInt8.ofNat c.toNat] := by
  unfold String.utf8EncodeChar
  exact if_pos (Nat.le_of_lt_succ h)

/-- Every byte of a character beyond ASCII has its highest bit set. -/
theorem utf8EncodeChar_of_le {c : Char} (h : 0x80 ≤ c.toNat) :
    ∀ b ∈ String.utf8EncodeChar c, 0x80 ≤ b.toNat := by
  have hbeyond : ¬ c.val.toNat ≤ 0x7f := Nat.not_le.mpr h
  unfold String.utf8EncodeChar
  dsimp only
  rw [if_neg hbeyond]
  -- two, three or four bytes
  split
  · simp
    omega
  · split
    · simp
      omega
    · simp
      omega

/-- An ASCII byte of a text is a character of it. -/
theorem mem_of_mem_utf8 {b : UInt8} {text : List Char} (hb : b.toNat < 0x80)
    (hmem : b ∈ utf8 text) : ∃ c ∈ text, c.toNat = b.toNat := by
  obtain ⟨c, hc, hbyte⟩ := List.mem_flatMap.mp hmem
  refine ⟨c, hc, ?_⟩
  by_cases hascii : c.toNat < 0x80
  · rw [utf8EncodeChar_of_lt hascii, List.mem_singleton] at hbyte
    rw [hbyte, UInt8.toNat_ofNat', Nat.mod_eq_of_lt (by omega)]
  · have hhigh := utf8EncodeChar_of_le (Nat.le_of_not_lt hascii) b hbyte
    omega

-- 2. Strings.

/-- The characters that stand for themselves. -/
def unescaped (c : Char) : Bool := 0x20 ≤ c.toNat && c ≠ '"' && c ≠ '\\'

/-- What a character stands for behind a backslash. -/
def escapeValue : Char → Option Char
  | '"' => some '"'
  | '\\' => some '\\'
  | '/' => some '/'
  | 'b' => some '\x08'
  | 'f' => some '\x0c'
  | 'n' => some '\n'
  | 'r' => some '\r'
  | 't' => some '\t'
  | _ => none

def hexValue (c : Char) : Option Nat :=
  if '0' ≤ c ∧ c ≤ '9' then some (c.toNat - 0x30)
  else if 'a' ≤ c ∧ c ≤ 'f' then some (c.toNat - 0x57)
  else if 'A' ≤ c ∧ c ≤ 'F' then some (c.toNat - 0x37)
  else none

def hexUnit (a b c d : Char) : Option Nat := do
  return 0x1000 * (← hexValue a) + 0x100 * (← hexValue b) + 0x10 * (← hexValue c) + (← hexValue d)

/-- The inside of a string. -/
inductive Chars : List Char → Prop where
  | nil : Chars []
  | unescaped {c : Char} {rest : List Char} (hc : unescaped c = true) (h : Chars rest) :
      Chars (c :: rest)
  | escaped {e : Char} {rest : List Char} (he : (escapeValue e).isSome = true) (h : Chars rest) :
      Chars ('\\' :: e :: rest)
  | unicode {a b c d : Char} {rest : List Char} (hunit : (hexUnit a b c d).isSome = true)
      (h : Chars rest) : Chars ('\\' :: 'u' :: a :: b :: c :: d :: rest)

def quoted (inside : List Char) : List Char := '"' :: (inside ++ ['"'])

def StringLiteral (s : List Char) : Prop := ∃ inside, s = quoted inside ∧ Chars inside

/-- The text that the inside of a string stands for; an unpaired surrogate stands for none. -/
def decode : List Char → Option (List Char)
  | [] => some []
  | '\\' :: 'u' :: a :: b :: c :: d :: rest =>
      match hexUnit a b c d with
      | none => none
      | some unit =>
          if unit < 0xd800 ∨ 0xe000 ≤ unit then (decode rest).map (Char.ofNat unit :: ·)
          else if 0xdc00 ≤ unit then none
          else
            match rest with
            | '\\' :: 'u' :: a :: b :: c :: d :: rest =>
                match hexUnit a b c d with
                | none => none
                | some low =>
                    if 0xdc00 ≤ low ∧ low < 0xe000 then
                      (decode rest).map
                        (Char.ofNat (0x10000 + 0x400 * (unit - 0xd800) + (low - 0xdc00)) :: ·)
                    else none
            | _ => none
  | '\\' :: e :: rest =>
      match escapeValue e with
      | none => none
      | some c => (decode rest).map (c :: ·)
  | c :: rest => if unescaped c then (decode rest).map (c :: ·) else none

/-- The bytes of a string that stands for the text. -/
def LiteralOf (literal : List UInt8) (text : List Char) : Prop :=
  ∃ inside, literal = utf8 (quoted inside) ∧ StringLiteral (quoted inside) ∧
    decode inside = some text

variable {s t inside rest : List Char} {c e : Char}

theorem decode_unescaped (hc : unescaped c = true) :
    decode (c :: rest) = (decode rest).map (c :: ·) := by
  have hslash : c ≠ '\\' := by
    rintro rfl
    exact absurd hc (by decide)
  simp [decode, hslash, hc]

theorem decode_escaped (he : escapeValue e = some c) :
    decode ('\\' :: e :: rest) = (decode rest).map (c :: ·) := by
  have hu : e ≠ 'u' := by
    rintro rfl
    cases he
  simp [decode, hu, he]

/-- What the decoder accepts is the inside of a string. -/
theorem chars_of_decode (h : (decode s).isSome = true) : Chars s := by
  fun_induction decode s with
  | case1 => exact .nil
  | case3 a b c d rest unit hunit hscalar ih =>
      rw [Option.isSome_map] at h
      exact .unicode (by rw [hunit]; rfl) (ih h)
  | case6 a b c d unit hunit _ _ a' b' c' d' rest low hlow _ ih =>
      rw [Option.isSome_map] at h
      exact .unicode (by rw [hunit]; rfl) (.unicode (by rw [hlow]; rfl) (ih h))
  | case10 e rest _ c he ih =>
      rw [Option.isSome_map] at h
      exact .escaped (by rw [he]; rfl) (ih h)
  | case11 c rest _ _ hc ih =>
      rw [Option.isSome_map] at h
      exact .unescaped hc (ih h)
  | _ => cases h

theorem toNat_of_hexValue (h : (hexValue c).isSome = true) : 0x20 ≤ c.toNat := by
  unfold hexValue at h
  split at h
  · rename_i hdigit
    exact Nat.le_trans (by decide) (Char.le_def.mp hdigit.1)
  · split at h
    · rename_i hlower
      exact Nat.le_trans (by decide) (Char.le_def.mp hlower.1)
    · split at h
      · rename_i hupper
        exact Nat.le_trans (by decide) (Char.le_def.mp hupper.1)
      · cases h

theorem toNat_of_escapeValue (h : (escapeValue e).isSome = true) : 0x20 ≤ e.toNat := by
  unfold escapeValue at h
  split at h <;> first | decide | cases h

/-- A string holds no control character. -/
theorem Chars.toNat_le (h : Chars s) : ∀ c ∈ s, 0x20 ≤ c.toNat := by
  induction h with
  | nil => exact fun c hc => (nomatch hc)
  | unescaped hc _ ih =>
      rw [List.forall_mem_cons]
      simp only [Json.unescaped, Bool.and_eq_true, decide_eq_true_eq] at hc
      exact ⟨hc.1.1, ih⟩
  | escaped he _ ih =>
      rw [List.forall_mem_cons, List.forall_mem_cons]
      exact ⟨by decide, toNat_of_escapeValue he, ih⟩
  | @unicode a b c d rest hunit _ ih =>
      have hhex : (hexValue a).isSome = true ∧ (hexValue b).isSome = true ∧
          (hexValue c).isSome = true ∧ (hexValue d).isSome = true := by
        unfold hexUnit at hunit
        cases ha : hexValue a <;> cases hb : hexValue b <;> cases hc : hexValue c <;>
          cases hd : hexValue d <;> simp_all
      simp only [List.forall_mem_cons]
      exact ⟨by decide, by decide, toNat_of_hexValue hhex.1, toNat_of_hexValue hhex.2.1,
        toNat_of_hexValue hhex.2.2.1, toNat_of_hexValue hhex.2.2.2, ih⟩

theorem StringLiteral.toNat_le (h : StringLiteral s) : ∀ c ∈ s, 0x20 ≤ c.toNat := by
  obtain ⟨inside, rfl, hinside⟩ := h
  unfold quoted
  rw [List.forall_mem_cons, List.forall_mem_append, List.forall_mem_singleton]
  exact ⟨by decide, hinside.toNat_le, by decide⟩

-- 3. Texts.

def isWs (c : Char) : Bool := c = ' ' || c = '\t' || c = '\n' || c = '\r'

def Ws (s : List Char) : Prop := ∀ c ∈ s, isWs c = true

def Digits (s : List Char) : Prop := s ≠ [] ∧ ∀ c ∈ s, c.isDigit = true

inductive IntPart : List Char → Prop where
  | zero : IntPart ['0']
  | digits {c : Char} {rest : List Char} (hne : c ≠ '0') (hdigits : Digits (c :: rest)) :
      IntPart (c :: rest)

inductive Frac : List Char → Prop where
  | absent : Frac []
  | present {digits : List Char} (hdigits : Digits digits) : Frac ('.' :: digits)

inductive Exp : List Char → Prop where
  | absent : Exp []
  | present {e : Char} {sign digits : List Char} (he : e = 'e' ∨ e = 'E')
      (hsign : sign = [] ∨ sign = ['+'] ∨ sign = ['-']) (hdigits : Digits digits) :
      Exp (e :: (sign ++ digits))

inductive Number : List Char → Prop where
  | mk {sign int frac exp : List Char} (hsign : sign = [] ∨ sign = ['-']) (hint : IntPart int)
      (hfrac : Frac frac) (hexp : Exp exp) : Number (sign ++ int ++ frac ++ exp)

/-- What the rules of the grammar derive: a value, one between white space, and the insides of an
object and of an array. -/
inductive Symbol where
  | value
  | element
  | members
  | elements

inductive Derives : Symbol → List Char → Prop where
  | nullName : Derives .value "null".toList
  | trueName : Derives .value "true".toList
  | falseName : Derives .value "false".toList
  | number {s : List Char} (h : Number s) : Derives .value s
  | string {s : List Char} (h : StringLiteral s) : Derives .value s
  | emptyObject {w : List Char} (hw : Ws w) : Derives .value ('\x7b' :: (w ++ ['\x7d']))
  | object {s : List Char} (h : Derives .members s) : Derives .value ('\x7b' :: (s ++ ['\x7d']))
  | emptyArray {w : List Char} (hw : Ws w) : Derives .value ('[' :: (w ++ [']']))
  | array {s : List Char} (h : Derives .elements s) : Derives .value ('[' :: (s ++ [']']))
  | element {w s w' : List Char} (hw : Ws w) (h : Derives .value s) (hw' : Ws w') :
      Derives .element (w ++ s ++ w')
  | member {w key w' s : List Char} (hw : Ws w) (hkey : StringLiteral key) (hw' : Ws w')
      (h : Derives .element s) : Derives .members (w ++ key ++ w' ++ ':' :: s)
  | nextMember {s rest : List Char} (h : Derives .members s) (hrest : Derives .members rest) :
      Derives .members (s ++ ',' :: rest)
  | lastElement {s : List Char} (h : Derives .element s) : Derives .elements s
  | nextElement {s rest : List Char} (h : Derives .element s) (hrest : Derives .elements rest) :
      Derives .elements (s ++ ',' :: rest)

def Text (s : List Char) : Prop := Derives .element s

/-- The bytes of a text. -/
def Valid (body : List UInt8) : Prop := ∃ text, body = utf8 text ∧ Text text

/-- Outside its strings a text has no control characters but white space. -/
def Visible (s : List Char) : Prop := ∀ c ∈ s, 0x20 ≤ c.toNat ∨ isWs c = true

theorem Visible.append (hs : Visible s) (ht : Visible t) : Visible (s ++ t) :=
  List.forall_mem_append.mpr ⟨hs, ht⟩

theorem Visible.cons (hc : 0x20 ≤ c.toNat) (hs : Visible s) : Visible (c :: s) :=
  List.forall_mem_cons.mpr ⟨.inl hc, hs⟩

theorem Visible.of_le (h : ∀ c ∈ s, 0x20 ≤ c.toNat) : Visible s := fun c hc => .inl (h c hc)

theorem Visible.of_all (h : s.all (fun c => decide (0x20 ≤ c.toNat)) = true) : Visible s :=
  .of_le fun c hc => of_decide_eq_true (List.all_eq_true.mp h c hc)

theorem Ws.visible (h : Ws s) : Visible s := fun c hc => .inr (h c hc)

theorem Digits.visible (h : Digits s) : Visible s := by
  refine .of_le fun c hc => ?_
  have hdigit := h.2 c hc
  simp only [Char.isDigit, Bool.and_eq_true, decide_eq_true_eq] at hdigit
  exact Nat.le_trans (by decide) hdigit.1

theorem Number.visible (h : Number s) : Visible s := by
  cases h with
  | mk hsign hint hfrac hexp =>
      refine .append (.append (.append ?_ ?_) ?_) ?_
      · rcases hsign with rfl | rfl
        · exact .of_all (by decide)
        · exact .of_all (by decide)
      · cases hint with
        | zero => exact .of_all (by decide)
        | digits _ hdigits => exact hdigits.visible
      · cases hfrac with
        | absent => exact .of_all (by decide)
        | present hdigits => exact .cons (by decide) hdigits.visible
      · cases hexp with
        | absent => exact .of_all (by decide)
        | present he hsign hdigits =>
            refine .cons ?_ (.append ?_ hdigits.visible)
            · rcases he with rfl | rfl <;> decide
            · rcases hsign with rfl | rfl | rfl <;> exact .of_all (by decide)

theorem Derives.visible {n : Symbol} (h : Derives n s) : Visible s := by
  induction h with
  | nullName => exact .of_all (by decide)
  | trueName => exact .of_all (by decide)
  | falseName => exact .of_all (by decide)
  | number h => exact h.visible
  | string h => exact .of_le h.toNat_le
  | emptyObject hw => exact .cons (by decide) (hw.visible.append (.of_all (by decide)))
  | object _ ih => exact .cons (by decide) (ih.append (.of_all (by decide)))
  | emptyArray hw => exact .cons (by decide) (hw.visible.append (.of_all (by decide)))
  | array _ ih => exact .cons (by decide) (ih.append (.of_all (by decide)))
  | element hw _ hw' ih => exact (hw.visible.append ih).append hw'.visible
  | member hw hkey hw' _ ih =>
      have hkey : Visible _ := .of_le hkey.toNat_le
      exact ((hw.visible.append hkey).append hw'.visible).append (.cons (by decide) ih)
  | nextMember _ _ ih ih' => exact ih.append (.cons (by decide) ih')
  | lastElement _ ih => exact ih
  | nextElement _ _ ih ih' => exact ih.append (.cons (by decide) ih')

/-- A text has no control byte but those of white space. -/
theorem Valid.visible {body : List UInt8} {b : UInt8} (h : Valid body) (hb : b ∈ body)
    (hcontrol : b.toNat < 0x20) : b = 0x09 ∨ b = 0x0a ∨ b = 0x0d := by
  obtain ⟨text, rfl, htext⟩ := h
  obtain ⟨c, hc, hbyte⟩ := mem_of_mem_utf8 (by omega) hb
  rcases Derives.visible htext c hc with hlarge | hws
  · omega
  · simp only [isWs, Bool.or_eq_true, decide_eq_true_eq] at hws
    rw [← UInt8.toNat_inj, ← UInt8.toNat_inj, ← UInt8.toNat_inj, ← hbyte]
    rcases hws with ((rfl | rfl) | rfl) | rfl
    · exact absurd hcontrol (by rw [← hbyte]; decide)
    · exact .inl rfl
    · exact .inr (.inl rfl)
    · exact .inr (.inr rfl)

-- 4. Building texts.

theorem Chars.append (hs : Chars s) (ht : Chars t) : Chars (s ++ t) := by
  induction hs with
  | nil => exact ht
  | unescaped hc _ ih => exact .unescaped hc ih
  | escaped he _ ih => exact .escaped he ih
  | unicode hunit _ ih => exact .unicode hunit ih

theorem chars_of_unescaped (h : s.all unescaped = true) : Chars s := by
  induction s with
  | nil => exact .nil
  | cons c s ih =>
      rw [List.all_cons, Bool.and_eq_true] at h
      exact .unescaped h.1 (ih h.2)

theorem unescaped_of_isDigit (h : c.isDigit = true) : unescaped c = true := by
  simp only [Char.isDigit, Bool.and_eq_true, decide_eq_true_eq] at h
  have hlow : '0'.toNat ≤ c.toNat := h.1
  have hhigh : c.toNat ≤ '9'.toNat := h.2
  have hquote : c ≠ '"' := fun heq => absurd hlow (by rw [heq]; decide)
  have hslash : c ≠ '\\' := fun heq => absurd hhigh (by rw [heq]; decide)
  have hvisible : 0x20 ≤ c.toNat := Nat.le_trans (by decide) hlow
  simp [unescaped, hvisible, hquote, hslash]

theorem digits_toDigits (n : Nat) : Digits (Nat.toDigits 10 n) :=
  ⟨Nat.toDigits_ne_nil, fun _ hc => Nat.isDigit_of_mem_toDigits (by decide) (by decide) hc⟩

/-- The decimal of a positive number does not begin with a zero. -/
theorem toDigits_head {n : Nat} (hn : 0 < n) :
    ∃ c rest, Nat.toDigits 10 n = c :: rest ∧ c ≠ '0' := by
  induction n using Nat.strongRecOn with
  | ind n ih =>
      by_cases hsmall : n < 10
      · refine ⟨Nat.digitChar n, [], Nat.toDigits_of_lt_base hsmall, ?_⟩
        interval_cases n <;> decide
      · obtain ⟨c, rest, heq, hne⟩ := ih (n / 10) (by omega) (by omega)
        refine ⟨c, rest ++ [Nat.digitChar (n % 10)], ?_, hne⟩
        rw [Nat.toDigits_of_base_le (by decide) (by omega), heq]
        rfl

theorem number_toDigits (n : Nat) : Number (Nat.toDigits 10 n) := by
  have hint : IntPart (Nat.toDigits 10 n) := by
    rcases Nat.eq_zero_or_pos n with rfl | hn
    · exact .zero
    · obtain ⟨c, rest, heq, hne⟩ := toDigits_head hn
      have hdigits := digits_toDigits n
      rw [heq] at hdigits ⊢
      exact .digits hne hdigits
  have h := Number.mk (.inl rfl) hint .absent .absent
  rwa [List.nil_append, List.append_nil, List.append_nil] at h

/-- A member without white space. -/
def member (name : String) (value : List Char) : List Char := quoted name.toList ++ ':' :: value

theorem derives_member {name : String} (hname : name.toList.all unescaped = true)
    (h : Derives .value s) : Derives .members (member name s) := by
  have hnone : Ws [] := fun c hc => (nomatch hc)
  have helement : Derives .element s := by
    have h := Derives.element hnone h hnone
    rwa [List.nil_append, List.append_nil] at h
  have hmember := Derives.member hnone ⟨_, rfl, chars_of_unescaped hname⟩ hnone helement
  rwa [List.nil_append, List.append_nil] at hmember

/-- The members of an object. -/
def joined : List (List Char) → List Char
  | [] => []
  | [m] => m
  | m :: ms => m ++ ',' :: joined ms

theorem derives_joined {ms : List (List Char)} (hne : ms ≠ [])
    (h : ∀ m ∈ ms, Derives .members m) : Derives .members (joined ms) := by
  fun_induction joined ms with
  | case1 => exact absurd rfl hne
  | case2 m => exact h m List.mem_cons_self
  | case3 m ms hms ih =>
      rw [List.forall_mem_cons] at h
      exact .nextMember h.1 (ih hms h.2)

/-- The text of an object with these members. -/
def objectOf (ms : List (List Char)) : List Char := '\x7b' :: (joined ms ++ ['\x7d'])

theorem text_objectOf {ms : List (List Char)} (hne : ms ≠ [])
    (h : ∀ m ∈ ms, Derives .members m) : Text (objectOf ms) := by
  have hnone : Ws [] := fun c hc => (nomatch hc)
  have htext := Derives.element hnone (.object (derives_joined hne h)) hnone
  rwa [List.nil_append, List.append_nil] at htext

end Json
