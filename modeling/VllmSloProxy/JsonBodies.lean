import VllmSloProxy.Lib.Json
import VllmSloProxy.ProxySession

/-!
# The JSON that the proxy writes

`json_escape`, and the bodies that embed what it makes of an error text and of the upstream host.
It escapes the quote, the backslash and three control characters, and copies every other one.
-/

namespace VllmSloProxy

open Json Context

/-- `json_escape` on a character of the text. -/
def escapeChar (c : Char) : List Char :=
  if c = '"' then ['\\', '"']
  else if c = '\\' then ['\\', '\\']
  else if c = '\n' then ['\\', 'n']
  else if c = '\r' then ['\\', 'r']
  else if c = '\t' then ['\\', 't']
  else [c]

def escapeText (text : List Char) : List Char := text.flatMap escapeChar

/-- The characters that JSON allows where `json_escape` copies them, and the control characters that
it escapes. -/
def Escapable (c : Char) : Prop := 0x20 ≤ c.toNat ∨ c = '\n' ∨ c = '\r' ∨ c = '\t'

instance (c : Char) : Decidable (Escapable c) := inferInstanceAs (Decidable (_ ∨ _))

variable {c : Char} {text : List Char}

-- 1. On bytes and on characters.

theorem jsonEscapeByte_of_le {b : UInt8} (h : 0x80 ≤ b.toNat) : jsonEscapeByte b = [b] := by
  have hne {a : UInt8} (ha : a.toNat < 0x80) : b ≠ a := fun heq => by
    rw [heq] at h
    omega
  unfold jsonEscapeByte
  rw [if_neg (hne (by decide)), if_neg (hne (by decide)), if_neg (hne (by decide)),
    if_neg (hne (by decide)), if_neg (hne (by decide))]

theorem jsonEscape_eq_self {value : Bytes} (h : ∀ b ∈ value, 0x80 ≤ b.toNat) :
    jsonEscape value = value := by
  induction value with
  | nil => rfl
  | cons b value ih =>
      rw [List.forall_mem_cons] at h
      unfold jsonEscape at ih ⊢
      rw [List.flatMap_cons, jsonEscapeByte_of_le h.1, ih h.2]
      rfl

/-- Any other ASCII character is one byte, which is copied. -/
theorem jsonEscapeByte_of_ne (hascii : c.toNat < 0x80) (hquote : c ≠ '"') (hslash : c ≠ '\\')
    (hn : c ≠ '\n') (hr : c ≠ '\r') (ht : c ≠ '\t') :
    jsonEscapeByte (UInt8.ofNat c.toNat) = [UInt8.ofNat c.toNat] := by
  have hne {a : Char} {b : UInt8} (hb : b.toNat = a.toNat) (hca : c ≠ a) :
      UInt8.ofNat c.toNat ≠ b := by
    intro heq
    have hnat := congrArg UInt8.toNat heq
    rw [UInt8.toNat_ofNat', Nat.mod_eq_of_lt (by omega), hb] at hnat
    exact hca (Char.toNat_inj.mp hnat)
  unfold jsonEscapeByte
  rw [if_neg (hne (by decide) hquote), if_neg (hne (by decide) hslash),
    if_neg (hne (by decide) hn), if_neg (hne (by decide) hr), if_neg (hne (by decide) ht)]

theorem escapeChar_of_ne (hquote : c ≠ '"') (hslash : c ≠ '\\') (hn : c ≠ '\n') (hr : c ≠ '\r')
    (ht : c ≠ '\t') : escapeChar c = [c] := by
  unfold escapeChar
  rw [if_neg hquote, if_neg hslash, if_neg hn, if_neg hr, if_neg ht]

/-- A character is escaped to one that stands for it, or copied. -/
theorem escapeChar_cases (c : Char) :
    (∃ e, escapeChar c = ['\\', e] ∧ escapeValue e = some c ∧
      jsonEscape (String.utf8EncodeChar c) = utf8 ['\\', e]) ∨
    (escapeChar c = [c] ∧ c ≠ '"' ∧ c ≠ '\\' ∧ c ≠ '\n' ∧ c ≠ '\r' ∧ c ≠ '\t') := by
  by_cases hquote : c = '"'
  · rw [hquote]
    exact .inl ⟨_, rfl, rfl, rfl⟩
  by_cases hslash : c = '\\'
  · rw [hslash]
    exact .inl ⟨_, rfl, rfl, rfl⟩
  by_cases hn : c = '\n'
  · rw [hn]
    exact .inl ⟨_, rfl, rfl, rfl⟩
  by_cases hr : c = '\r'
  · rw [hr]
    exact .inl ⟨_, rfl, rfl, rfl⟩
  by_cases ht : c = '\t'
  · rw [ht]
    exact .inl ⟨_, rfl, rfl, rfl⟩
  exact .inr ⟨escapeChar_of_ne hquote hslash hn hr ht, hquote, hslash, hn, hr, ht⟩

theorem jsonEscape_utf8EncodeChar (c : Char) :
    jsonEscape (String.utf8EncodeChar c) = utf8 (escapeChar c) := by
  rcases escapeChar_cases c with ⟨e, hchar, -, hbytes⟩ | ⟨hchar, hquote, hslash, hn, hr, ht⟩
  · rw [hchar, hbytes]
  · rw [hchar, utf8_cons, utf8_nil, List.append_nil]
    by_cases hascii : c.toNat < 0x80
    · rw [utf8EncodeChar_of_lt hascii]
      show jsonEscapeByte _ ++ [] = _
      rw [jsonEscapeByte_of_ne hascii hquote hslash hn hr ht, List.append_nil]
    · exact jsonEscape_eq_self (utf8EncodeChar_of_le (Nat.le_of_not_lt hascii))

theorem jsonEscape_utf8 (text : List Char) : jsonEscape (utf8 text) = utf8 (escapeText text) := by
  induction text with
  | nil => rfl
  | cons c text ih =>
      have hcons : jsonEscape (utf8 (c :: text)) =
          jsonEscape (String.utf8EncodeChar c) ++ jsonEscape (utf8 text) := List.flatMap_append
      rw [hcons, jsonEscape_utf8EncodeChar, ih, ← utf8_append]
      rfl

theorem bytes_eq (literal : String) : bytes literal = utf8 literal.toList := rfl

theorem decimal_eq (n : Nat) : decimal n = utf8 (Nat.toDigits 10 n) := by
  unfold decimal
  rw [bytes_eq]
  congr 1
  exact Nat.toList_repr

-- 2. Escapable text is restored.

theorem decode_escapeText (h : ∀ c ∈ text, Escapable c) : decode (escapeText text) = some text := by
  induction text with
  | nil => rfl
  | cons c text ih =>
      rw [List.forall_mem_cons] at h
      have hrest : (decode (escapeText text)).map (c :: ·) = some (c :: text) := by
        rw [ih h.2]
        rfl
      have hcons : escapeText (c :: text) = escapeChar c ++ escapeText text := List.flatMap_cons
      rcases escapeChar_cases c with ⟨e, hchar, hvalue, -⟩ | ⟨hchar, hquote, hslash, hn, hr, ht⟩
      · rw [hcons, hchar]
        exact (decode_escaped hvalue).trans hrest
      · have hplain : unescaped c = true := by
          rcases h.1 with hlow | heq | heq | heq
          · simp [unescaped, hlow, hquote, hslash]
          · exact absurd heq hn
          · exact absurd heq hr
          · exact absurd heq ht
        rw [hcons, hchar]
        exact (decode_unescaped hplain).trans hrest

theorem chars_escapeText (h : ∀ c ∈ text, Escapable c) : Chars (escapeText text) :=
  chars_of_decode (by rw [decode_escapeText h]; rfl)

theorem literalOf_jsonEscape {s : String} (h : ∀ c ∈ s.toList, Escapable c) :
    LiteralOf (0x22 :: (jsonEscape (bytes s) ++ [0x22])) s.toList := by
  refine ⟨escapeText s.toList, ?_, ⟨_, rfl, chars_escapeText h⟩, decode_escapeText h⟩
  unfold quoted
  rw [bytes_eq, jsonEscape_utf8, utf8_cons, utf8_append]
  rfl

/-- The text of an error body. -/
def errorText (error : String) : List Char :=
  objectOf [member "error" (quoted (escapeText error.toList))]

theorem errorBody_eq (error : String) : errorBody error = utf8 (errorText error) := by
  unfold errorBody
  rw [bytes_eq error, jsonEscape_utf8, bytes_eq, bytes_eq, ← utf8_append, ← utf8_append]
  simp [errorText, objectOf, joined, member, quoted]

theorem errorBody_valid {error : String} (h : ∀ c ∈ error.toList, Escapable c) :
    Valid (errorBody error) := by
  refine ⟨_, errorBody_eq error, text_objectOf (List.cons_ne_nil _ _) ?_⟩
  rw [List.forall_mem_singleton]
  exact derives_member (by decide) (.string ⟨_, rfl, chars_escapeText h⟩)

/-- The text of the `/health` body. -/
def healthText (host : List Char) (port : Nat) (limit : InflightLimiterSnapshot)
    (metrics : ProxyMetricsSnapshot) : List Char :=
  objectOf [member "status" (quoted "ok".toList), member "proxy_healthy" "true".toList,
    member "upstream_healthy" "null".toList,
    member "current_inflight" (Nat.toDigits 10 limit.currentInflight),
    member "queued_requests" (Nat.toDigits 10 limit.queuedRequests),
    member "max_inflight" (Nat.toDigits 10 limit.maxInflight),
    member "max_queue_size" (Nat.toDigits 10 limit.maxQueueSize),
    member "total_requests" (Nat.toDigits 10 metrics.totalRequests),
    member "completed_requests" (Nat.toDigits 10 metrics.completedRequests),
    member "failed_requests" (Nat.toDigits 10 metrics.failedRequests),
    member "upstream" (quoted (escapeText host ++ ':' :: Nat.toDigits 10 port))]

set_option maxRecDepth 4096 in
theorem healthBody_eq (config : ProxyConfig) (host : String) (limit : InflightLimiterSnapshot)
    (metrics : ProxyMetricsSnapshot) :
    healthBody { config with upstreamHost := bytes host } limit metrics =
      utf8 (healthText host.toList config.upstreamPort limit metrics) := by
  unfold healthBody
  rw [bytes_eq host, jsonEscape_utf8]
  simp only [decimal_eq, bytes_eq, ← utf8_append]
  simp [healthText, objectOf, joined, member, quoted]

theorem healthBody_valid {host : String} (h : ∀ c ∈ host.toList, Escapable c)
    (config : ProxyConfig) (limit : InflightLimiterSnapshot) (metrics : ProxyMetricsSnapshot) :
    Valid (healthBody { config with upstreamHost := bytes host } limit metrics) := by
  have hnumber (n : Nat) : Derives .value (Nat.toDigits 10 n) := .number (number_toDigits n)
  have hport : Chars (':' :: Nat.toDigits 10 config.upstreamPort) := by
    apply chars_of_unescaped
    rw [List.all_cons, Bool.and_eq_true, List.all_eq_true]
    exact ⟨by decide, fun c hc => unescaped_of_isDigit ((digits_toDigits _).2 c hc)⟩
  have hupstream : Derives .value
      (quoted (escapeText host.toList ++ ':' :: Nat.toDigits 10 config.upstreamPort)) :=
    .string ⟨_, rfl, (chars_escapeText h).append hport⟩
  refine ⟨_, healthBody_eq config host limit metrics, text_objectOf (List.cons_ne_nil _ _) ?_⟩
  simp only [List.forall_mem_cons]
  exact ⟨derives_member (by decide) (.string ⟨_, rfl, chars_of_unescaped (by decide)⟩),
    derives_member (by decide) .trueName, derives_member (by decide) .nullName,
    derives_member (by decide) (hnumber _), derives_member (by decide) (hnumber _),
    derives_member (by decide) (hnumber _), derives_member (by decide) (hnumber _),
    derives_member (by decide) (hnumber _), derives_member (by decide) (hnumber _),
    derives_member (by decide) (hnumber _), derives_member (by decide) hupstream,
    fun m hm => (nomatch hm)⟩

-- 3. Any other text is not.

/-- A control character that is not escaped is copied. -/
theorem mem_jsonEscape {s : String} (h : ¬ ∀ c ∈ s.toList, Escapable c) :
    ∃ b ∈ jsonEscape (bytes s), b.toNat < 0x20 ∧ b ≠ 0x09 ∧ b ≠ 0x0a ∧ b ≠ 0x0d := by
  simp only [not_forall, exists_prop] at h
  obtain ⟨c, hc, hescapable⟩ := h
  unfold Escapable at hescapable
  simp only [not_or, Nat.not_le] at hescapable
  obtain ⟨hlow, hn, hr, ht⟩ := hescapable
  have hnat : (UInt8.ofNat c.toNat).toNat = c.toNat := by
    rw [UInt8.toNat_ofNat', Nat.mod_eq_of_lt (by omega)]
  have hne {a : Char} {b : UInt8} (hb : b.toNat = a.toNat) (hca : c ≠ a) :
      UInt8.ofNat c.toNat ≠ b := fun heq =>
    hca (Char.toNat_inj.mp (by rw [← hb, ← heq, hnat]))
  refine ⟨UInt8.ofNat c.toNat, ?_, by omega, hne (by decide) ht, hne (by decide) hn,
    hne (by decide) hr⟩
  rw [bytes_eq, jsonEscape_utf8]
  refine List.mem_flatMap.mpr ⟨c, List.mem_flatMap.mpr ⟨c, hc, ?_⟩, ?_⟩
  · have hquote : c ≠ '"' := fun heq => absurd hlow (by rw [heq]; decide)
    have hslash : c ≠ '\\' := fun heq => absurd hlow (by rw [heq]; decide)
    rw [escapeChar_of_ne hquote hslash hn hr ht]
    exact List.mem_singleton.mpr rfl
  · rw [utf8EncodeChar_of_lt (by omega)]
    exact List.mem_singleton.mpr rfl

theorem not_valid_of_mem {body : Bytes} {s : String} (h : ¬ ∀ c ∈ s.toList, Escapable c)
    (hsub : jsonEscape (bytes s) ⊆ body) : ¬ Valid body := by
  intro hvalid
  obtain ⟨b, hb, hcontrol, ht, hn, hr⟩ := mem_jsonEscape h
  rcases hvalid.visible (hsub hb) hcontrol with heq | heq | heq
  · exact ht heq
  · exact hn heq
  · exact hr heq

theorem not_literalOf {s : String} {text : List Char} (h : ¬ ∀ c ∈ s.toList, Escapable c) :
    ¬ LiteralOf (0x22 :: (jsonEscape (bytes s) ++ [0x22])) text := by
  rintro ⟨inside, heq, hliteral, -⟩
  obtain ⟨b, hb, hcontrol, -⟩ := mem_jsonEscape h
  have hmem : b ∈ utf8 (quoted inside) :=
    heq ▸ List.mem_cons_of_mem _ (List.mem_append_left _ hb)
  obtain ⟨c, hc, hbyte⟩ := mem_of_mem_utf8 (by omega) hmem
  have hlow := hliteral.toNat_le c hc
  omega

theorem jsonEscape_subset_errorBody (s : String) : jsonEscape (bytes s) ⊆ errorBody s :=
  fun _ hb => List.mem_append_left _ (List.mem_append_right _ hb)

theorem jsonEscape_subset_healthBody (config : ProxyConfig) (host : Bytes)
    (limit : InflightLimiterSnapshot) (metrics : ProxyMetricsSnapshot) :
    jsonEscape host ⊆ healthBody { config with upstreamHost := host } limit metrics := fun _ hb =>
  List.mem_append_left _ (List.mem_append_left _ (List.mem_append_left _ (List.mem_append_left _
    (List.mem_append_right _ hb))))

/-- Which texts `json_escape` makes a string of that stands for them, and which of them leave the
bodies valid. -/
theorem json_escape_valid_iff (s : String) (config : ProxyConfig)
    (limit : InflightLimiterSnapshot) (metrics : ProxyMetricsSnapshot) :
    (LiteralOf (0x22 :: (jsonEscape (bytes s) ++ [0x22])) s.toList ↔
      ∀ c ∈ s.toList, Escapable c) ∧
    (Valid (errorBody s) ↔ ∀ c ∈ s.toList, Escapable c) ∧
    (Valid (healthBody { config with upstreamHost := bytes s } limit metrics) ↔
      ∀ c ∈ s.toList, Escapable c) := by
  refine ⟨⟨fun hvalid => ?_, literalOf_jsonEscape⟩, ⟨fun hvalid => ?_, errorBody_valid⟩,
    ⟨fun hvalid => ?_, fun h => healthBody_valid h config limit metrics⟩⟩
  · by_contra h
    exact not_literalOf h hvalid
  · by_contra h
    exact not_valid_of_mem h (jsonEscape_subset_errorBody s) hvalid
  · by_contra h
    exact not_valid_of_mem h (jsonEscape_subset_healthBody config _ limit metrics) hvalid

/-- A byte 1 in the name of the upstream host ends up in the bodies. -/
theorem json_escape_control_byte :
    ¬ LiteralOf (0x22 :: (jsonEscape (bytes "\x01") ++ [0x22])) "\x01".toList ∧
    ¬ Valid (errorBody "\x01") ∧
    ¬ Valid (healthBody { upstreamHost := bytes "\x01" } {} {}) :=
  have hcontrol : ¬ ∀ c ∈ "\x01".toList, Escapable c :=
    fun h => absurd (h (Char.ofNat 1) (by decide)) (by decide)
  ⟨not_literalOf hcontrol, not_valid_of_mem hcontrol (jsonEscape_subset_errorBody _),
    not_valid_of_mem hcontrol (jsonEscape_subset_healthBody {} _ {} {})⟩

end VllmSloProxy
