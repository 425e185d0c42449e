import SvcAuth.Dependencies
import SvcAuth.StandardBase64
import Mathlib.Data.List.GetD
import Mathlib.Data.Nat.Digits.Lemmas

/-! The text formats of tokens: UTF-8 bytes, base64url without padding, hexadecimal UUIDs
and flat JSON objects. Each has a reader that undoes its writer. -/
namespace SvcAuth.TextFormats
open StandardBase64 (getD_mem ofNat_of_eq)

section Utf8

def utf8 (s : String) : Bytes := s.toByteArray.data.toList

def fromUtf8 (bs : Bytes) : Option String :=
  if h : ByteArray.IsValidUTF8 ⟨bs.toArray⟩ then some (.ofByteArray ⟨bs.toArray⟩ h) else none

theorem fromUtf8_utf8 (s : String) : fromUtf8 (utf8 s) = some s := by
  have hbytes : (⟨(utf8 s).toArray⟩ : ByteArray) = s.toByteArray := by simp [utf8]
  unfold fromUtf8
  simp only [hbytes, s.isValidUTF8, dif_pos]

end Utf8

section Base64Url

def alphabet : List Char :=
  "ABCDEFGHIJKLMNOPQRSTUVWXYZabcdefghijklmnopqrstuvwxyz0123456789-_".toList

def sextet (n : ℕ) : Char := alphabet.getD n 'A'

def sextetValue (c : Char) : Option ℕ := alphabet.findIdx? fun a => a = c

theorem sextetValue_sextet : ∀ n < 64, sextetValue (sextet n) = some n := by decide +kernel

theorem sextet_mem (n : ℕ) : sextet n ∈ alphabet := getD_mem (by decide) n

def encodeBytes : Bytes → List Char
  | a :: b :: c :: rest =>
    let n := (a.toNat * 256 + b.toNat) * 256 + c.toNat
    sextet (n / 262144) :: sextet (n / 4096 % 64) :: sextet (n / 64 % 64) :: sextet (n % 64) ::
      encodeBytes rest
  | [a, b] =>
    let n := (a.toNat * 256 + b.toNat) * 4
    [sextet (n / 4096), sextet (n / 64 % 64), sextet (n % 64)]
  | [a] =>
    let n := a.toNat * 16
    [sextet (n / 64), sextet (n % 64)]
  | [] => []

/-- Bits left over in the last character must be zero. -/
def decodeChars : List Char → Option Bytes
  | a :: b :: c :: d :: rest => do
    let w ← sextetValue a
    let x ← sextetValue b
    let y ← sextetValue c
    let z ← sextetValue d
    let n := ((w * 64 + x) * 64 + y) * 64 + z
    let bytes ← decodeChars rest
    return .ofNat (n / 65536) :: .ofNat (n / 256 % 256) :: .ofNat (n % 256) :: bytes
  | [a, b, c] => do
    let w ← sextetValue a
    let x ← sextetValue b
    let y ← sextetValue c
    let n := (w * 64 + x) * 64 + y
    if n % 4 = 0 then return [.ofNat (n / 1024), .ofNat (n / 4 % 256)] else none
  | [a, b] => do
    let w ← sextetValue a
    let x ← sextetValue b
    let n := w * 64 + x
    if n % 16 = 0 then return [.ofNat (n / 16)] else none
  | [_] => none
  | [] => some []

theorem decodeChars_encodeBytes (bs : Bytes) : decodeChars (encodeBytes bs) = some bs := by
  induction bs using encodeBytes.induct with
  | case1 a b c rest ih =>
    have ha := a.toNat_lt
    have hb := b.toNat_lt
    have hc := c.toNat_lt
    simp only [encodeBytes, decodeChars]
    rw [sextetValue_sextet _ (by omega), sextetValue_sextet _ (by omega),
      sextetValue_sextet _ (by omega), sextetValue_sextet _ (by omega), ih]
    simp only [Option.bind_eq_bind, Option.bind_some, Option.pure_def]
    rw [ofNat_of_eq (b := a) (by omega), ofNat_of_eq (b := b) (by omega),
      ofNat_of_eq (b := c) (by omega)]
  | case2 a b =>
    have ha := a.toNat_lt
    have hb := b.toNat_lt
    simp only [encodeBytes, decodeChars]
    rw [sextetValue_sextet _ (by omega), sextetValue_sextet _ (by omega),
      sextetValue_sextet _ (by omega)]
    simp only [Option.bind_eq_bind, Option.bind_some, Option.pure_def]
    rw [if_pos (by omega), ofNat_of_eq (b := a) (by omega), ofNat_of_eq (b := b) (by omega)]
  | case3 a =>
    have ha := a.toNat_lt
    simp only [encodeBytes, decodeChars]
    rw [sextetValue_sextet _ (by omega), sextetValue_sextet _ (by omega)]
    simp only [Option.bind_eq_bind, Option.bind_some, Option.pure_def]
    rw [if_pos (by omega), ofNat_of_eq (b := a) (by omega)]
  | case4 => rfl

theorem encodeBytes_alphabet (bs : Bytes) : ∀ c ∈ encodeBytes bs, c ∈ alphabet := by
  induction bs using encodeBytes.induct with
  | case1 a b c rest ih =>
    simp only [encodeBytes, List.forall_mem_cons]
    exact ⟨sextet_mem _, sextet_mem _, sextet_mem _, sextet_mem _, ih⟩
  | case2 a b => simp [encodeBytes, sextet_mem]
  | case3 a => simp [encodeBytes, sextet_mem]
  | case4 => simp [encodeBytes]

def base64Url (bs : Bytes) : String := .ofList (encodeBytes bs)

def fromBase64Url (s : String) : Option Bytes := decodeChars s.toList

theorem fromBase64Url_base64Url (bs : Bytes) : fromBase64Url (base64Url bs) = some bs := by
  rw [fromBase64Url, base64Url, String.toList_ofList, decodeChars_encodeBytes]

theorem base64Url_alphabet (bs : Bytes) : ∀ c ∈ (base64Url bs).toList, c ∈ alphabet := by
  rw [base64Url, String.toList_ofList]
  exact encodeBytes_alphabet bs

theorem base64Url_dotless (bs : Bytes) : '.' ∉ (base64Url bs).toList :=
  fun h => absurd (base64Url_alphabet bs '.' h) (by decide)

end Base64Url

section Hex

def hexDigit (n : ℕ) : Char := "0123456789abcdef".toList.getD n '0'

def hexValue (c : Char) : ℕ := "0123456789abcdef".toList.idxOf c

theorem hexValue_hexDigit : ∀ n < 16, hexValue (hexDigit n) = n := by decide

/-- The last `width` hexadecimal digits of `n`. -/
def hexDigits : ℕ → ℕ → List Char
  | 0, _ => []
  | width + 1, n => hexDigits width (n / 16) ++ [hexDigit (n % 16)]

def hexNumber (cs : List Char) : ℕ := cs.foldl (fun n c => n * 16 + hexValue c) 0

theorem hexNumber_hexDigits (width n : ℕ) : hexNumber (hexDigits width n) = n % 16 ^ width := by
  induction width generalizing n with
  | zero => simp [hexDigits, hexNumber, Nat.mod_one]
  | succ width ih =>
    have hlast := hexValue_hexDigit (n % 16) (Nat.mod_lt _ (by decide))
    have hrest := ih (n / 16)
    unfold hexNumber at hrest ⊢
    rw [hexDigits, List.foldl_append, hrest, List.foldl_cons, List.foldl_nil, hlast]
    rw [Nat.pow_succ, Nat.mul_comm (16 ^ width) 16, Nat.mod_mul]
    omega

/-- Hyphens after digits 8, 12, 16 and 20. -/
def hyphenated (cs : List Char) : List Char :=
  cs.take 8 ++ '-' :: ((cs.drop 8).take 4 ++ '-' :: ((cs.drop 12).take 4 ++ '-' ::
    ((cs.drop 16).take 4 ++ '-' :: cs.drop 20)))

def uuidText (u : Uuid) : String := .ofList (hyphenated (hexDigits 32 u.bits.toNat))

/-- Only the text that is written is read. -/
def fromUuidText (s : String) : Option Uuid :=
  let u : Uuid := ⟨.ofNat 128 (hexNumber (s.toList.filter fun c => c ≠ '-'))⟩
  if uuidText u = s then some u else none

theorem hexDigits_hyphenless (width n : ℕ) : ∀ c ∈ hexDigits width n, c ≠ '-' := by
  induction width generalizing n with
  | zero => simp [hexDigits]
  | succ width ih =>
    intro c hc
    rcases List.mem_append.mp hc with hc | hc
    · exact ih _ c hc
    · rw [List.mem_singleton.mp hc]
      exact ne_of_mem_of_not_mem (getD_mem (by decide) _) (by decide)

theorem filter_hyphenated {cs : List Char} (h : ∀ c ∈ cs, c ≠ '-') :
    (hyphenated cs).filter (fun c => c ≠ '-') = cs := by
  have hkeep : ∀ ds : List Char, (∀ c ∈ ds, c ∈ cs) → ds.filter (fun c => c ≠ '-') = ds := by
    intro ds hds
    exact List.filter_eq_self.mpr fun c hc => by simpa using h c (hds c hc)
  have hcut : ∀ n, (cs.drop n).take 4 ++ cs.drop (n + 4) = cs.drop n := by
    intro n
    rw [← List.drop_drop, List.take_append_drop]
  have hhyphen : ∀ ds : List Char,
      ('-' :: ds).filter (fun c => c ≠ '-') = ds.filter fun c => c ≠ '-' := by simp
  unfold hyphenated
  simp only [List.filter_append, hhyphen]
  rw [hkeep _ fun c hc => List.mem_of_mem_take hc,
    hkeep _ fun c hc => List.mem_of_mem_drop (List.mem_of_mem_take hc),
    hkeep _ fun c hc => List.mem_of_mem_drop (List.mem_of_mem_take hc),
    hkeep _ fun c hc => List.mem_of_mem_drop (List.mem_of_mem_take hc),
    hkeep _ fun c hc => List.mem_of_mem_drop hc, hcut 16, hcut 12, hcut 8, List.take_append_drop]

theorem fromUuidText_uuidText (u : Uuid) : fromUuidText (uuidText u) = some u := by
  have hbits : hexNumber (hexDigits 32 u.bits.toNat) = u.bits.toNat := by
    have hlt : u.bits.toNat < 16 ^ 32 := lt_of_lt_of_eq u.bits.isLt (by norm_num)
    rw [hexNumber_hexDigits, Nat.mod_eq_of_lt hlt]
  have hu : (⟨.ofNat 128 (hexNumber ((uuidText u).toList.filter fun c => c ≠ '-'))⟩ : Uuid) = u := by
    rw [uuidText, String.toList_ofList, filter_hyphenated (hexDigits_hyphenless _ _), hbits]
    simp
  unfold fromUuidText
  simp only [hu, if_true]

end Hex

section JsonText

/-- A character as it stands inside a JSON string. -/
def escape (c : Char) : List Char :=
  if c = '"' then ['\\', '"']
  else if c = '\\' then ['\\', '\\']
  else if c.toNat < 32 then ['\\', 'u', '0', '0', hexDigit (c.toNat / 16), hexDigit (c.toNat % 16)]
  else [c]

def quoted (s : String) : List Char := '"' :: (s.toList.flatMap escape ++ ['"'])

/-- The rest of a string after its opening quote, and what follows it. -/
def readQuoted : List Char → Option (List Char × List Char)
  | '"' :: rest => some ([], rest)
  | '\\' :: '"' :: rest => (readQuoted rest).map fun r => ('"' :: r.1, r.2)
  | '\\' :: '\\' :: rest => (readQuoted rest).map fun r => ('\\' :: r.1, r.2)
  | '\\' :: 'u' :: '0' :: '0' :: a :: b :: rest =>
    (readQuoted rest).map fun r => (.ofNat (hexValue a * 16 + hexValue b) :: r.1, r.2)
  | '\\' :: _ => none
  | c :: rest => (readQuoted rest).map fun r => (c :: r.1, r.2)
  | [] => none

theorem readQuoted_escape (c : Char) (rest : List Char) :
    readQuoted (escape c ++ rest) = (readQuoted rest).map fun r => (c :: r.1, r.2) := by
  unfold escape
  by_cases hquote : c = '"'
  · subst hquote
    simp [readQuoted]
  · by_cases hslash : c = '\\'
    · subst hslash
      simp [readQuoted]
    · by_cases hcontrol : c.toNat < 32
      · have hhi := hexValue_hexDigit (c.toNat / 16) (by omega)
        have hlo := hexValue_hexDigit (c.toNat % 16) (by omega)
        have hc : Char.ofNat (c.toNat / 16 * 16 + c.toNat % 16) = c := by
          rw [Nat.div_add_mod', Char.ofNat_toNat]
        simp only [if_neg hquote, if_neg hslash, if_pos hcontrol, List.cons_append,
          List.nil_append, readQuoted, hhi, hlo, hc]
      · simp only [if_neg hquote, if_neg hslash, if_neg hcontrol, List.cons_append,
          List.nil_append]
        rw [readQuoted.eq_def]
        split <;> simp_all

theorem readQuoted_flatMap (cs rest : List Char) :
    readQuoted (cs.flatMap escape ++ '"' :: rest) = some (cs, rest) := by
  induction cs with
  | nil => simp [readQuoted]
  | cons c cs ih =>
    rw [List.flatMap_cons, List.append_assoc, readQuoted_escape, ih]
    rfl

def decimal (n : ℕ) : List Char :=
  if n = 0 then ['0'] else ((Nat.digits 10 n).map hexDigit).reverse

def decimalValue (cs : List Char) : ℕ := Nat.ofDigits 10 (cs.reverse.map hexValue)

theorem decimalValue_decimal (n : ℕ) : decimalValue (decimal n) = n := by
  unfold decimal decimalValue
  split
  · rename_i hn
    rw [hn]
    decide
  · have hdigits : (Nat.digits 10 n).map (hexValue ∘ hexDigit) = Nat.digits 10 n := by
      rw [List.map_congr_left (g := id), List.map_id]
      intro d hd
      have hlt := Nat.digits_lt_base (by decide) hd
      exact hexValue_hexDigit d (by omega)
    rw [List.reverse_reverse, List.map_map, hdigits, Nat.ofDigits_digits]

theorem decimal_isDigit (n : ℕ) : ∀ c ∈ decimal n, c.isDigit = true := by
  have hall : ∀ d < 10, (hexDigit d).isDigit = true := by decide
  intro c hc
  unfold decimal at hc
  split at hc
  · rw [List.mem_singleton.mp hc]
    decide
  · obtain ⟨d, hd, rfl⟩ := List.mem_map.mp (List.mem_reverse.mp hc)
    exact hall d (Nat.digits_lt_base (by decide) hd)

theorem decimal_ne_nil (n : ℕ) : decimal n ≠ [] := by
  unfold decimal
  split
  · simp
  · rename_i hn
    simp [Nat.digits_ne_nil_iff_ne_zero.mpr hn]

/-- What follows a number in an object. -/
def Ends (rest : List Char) : Prop := ∃ c cs, rest = c :: cs ∧ c.isDigit = false

def readDecimal (cs : List Char) : Option (ℕ × List Char) :=
  match cs.takeWhile Char.isDigit with
  | [] => none
  | ds => some (decimalValue ds, cs.dropWhile Char.isDigit)

theorem readDecimal_decimal (n : ℕ) {rest : List Char} (h : Ends rest) :
    readDecimal (decimal n ++ rest) = some (n, rest) := by
  obtain ⟨c, cs, rfl, hc⟩ := h
  have htake : (decimal n ++ c :: cs).takeWhile Char.isDigit = decimal n := by
    rw [List.takeWhile_append_of_pos (decimal_isDigit n), List.takeWhile_cons_of_neg (by simp [hc]),
      List.append_nil]
  have hdrop : (decimal n ++ c :: cs).dropWhile Char.isDigit = c :: cs := by
    rw [List.dropWhile_append_of_pos (decimal_isDigit n), List.dropWhile_cons_of_neg (by simp [hc])]
  obtain ⟨d, ds, hne⟩ := List.exists_cons_of_ne_nil (decimal_ne_nil n)
  unfold readDecimal
  rw [htake, hdrop, hne]
  simp only
  rw [← hne, decimalValue_decimal]

/-- Members that are neither strings nor integers are beyond this writer. -/
def jsonValue : Json → List Char
  | .str s => quoted s
  | .int (.ofNat n) => decimal n
  | .int (.negSucc n) => '-' :: decimal (n + 1)
  | _ => "null".toList

def readValue : List Char → Option (Json × List Char)
  | '"' :: cs => (readQuoted cs).map fun r => (.str (.ofList r.1), r.2)
  | '-' :: cs => (readDecimal cs).map fun r => (.int (-(r.1 : ℤ)), r.2)
  | cs => (readDecimal cs).map fun r => (.int r.1, r.2)

theorem readValue_jsonValue {v : Json} (hv : v.Scalar) {rest : List Char} (h : Ends rest) :
    readValue (jsonValue v ++ rest) = some (v, rest) := by
  cases v with
  | str s =>
    rw [jsonValue, quoted, List.cons_append, List.append_assoc, readValue, List.singleton_append,
      readQuoted_flatMap]
    simp
  | int i =>
    cases i with
    | ofNat n =>
      obtain ⟨d, ds, hne⟩ := List.exists_cons_of_ne_nil (decimal_ne_nil n)
      have hd : d.isDigit = true := decimal_isDigit n d (hne ▸ .head _)
      rw [jsonValue]
      unfold readValue
      split
      · rename_i cs heq
        rw [hne] at heq
        cases heq
        cases hd
      · rename_i cs heq
        rw [hne] at heq
        cases heq
        cases hd
      · rw [readDecimal_decimal _ h]
        rfl
    | negSucc n =>
      rw [jsonValue, List.cons_append, readValue, readDecimal_decimal _ h]
      rfl
  | _ => cases hv

def jsonMember (m : String × Json) : List Char := quoted m.1 ++ ':' :: jsonValue m.2

def readMember : List Char → Option ((String × Json) × List Char)
  | '"' :: cs => do
    let (name, rest) ← readQuoted cs
    match rest with
    | ':' :: rest => (readValue rest).map fun r => ((.ofList name, r.1), r.2)
    | _ => none
  | _ => none

theorem readMember_jsonMember {m : String × Json} (hm : m.2.Scalar) {rest : List Char}
    (h : Ends rest) : readMember (jsonMember m ++ rest) = some (m, rest) := by
  rw [jsonMember, quoted, List.append_assoc, List.cons_append, List.append_assoc, readMember,
    List.singleton_append, readQuoted_flatMap]
  simp only [List.cons_append, Option.bind_eq_bind, Option.bind_some, readValue_jsonValue hm h]
  simp

def jsonMembers : List (String × Json) → List Char
  | [] => ['}']
  | [m] => jsonMember m ++ ['}']
  | m :: ms => jsonMember m ++ ',' :: jsonMembers ms

/-- At most `fuel` members and the closing brace. -/
def readMembers : ℕ → List Char → Option (List (String × Json))
  | 0, _ => none
  | fuel + 1, cs => do
    let (m, rest) ← readMember cs
    match rest with
    | ['}'] => some [m]
    | ',' :: rest => (readMembers fuel rest).map (m :: ·)
    | _ => none

theorem readMembers_jsonMembers {ms : List (String × Json)} (hms : ∀ m ∈ ms, m.2.Scalar)
    (hne : ms ≠ []) {fuel : ℕ} (hfuel : ms.length ≤ fuel) :
    readMembers fuel (jsonMembers ms) = some ms := by
  induction ms generalizing fuel with
  | nil => exact absurd rfl hne
  | cons m ms ih =>
    obtain ⟨fuel, rfl⟩ : ∃ n, fuel = n + 1 := ⟨fuel - 1, by simp at hfuel; omega⟩
    have hm := hms m (.head _)
    cases ms with
    | nil =>
      rw [jsonMembers, readMembers, readMember_jsonMember hm ⟨_, _, rfl, rfl⟩]
      rfl
    | cons m' ms =>
      have hrest : readMembers fuel (jsonMembers (m' :: ms)) = some (m' :: ms) :=
        ih (fun m hm => hms m (.tail _ hm)) (by simp) (by simpa using hfuel)
      rw [jsonMembers, readMembers, readMember_jsonMember hm ⟨_, _, rfl, rfl⟩]
      · simp [hrest]
      · simp

theorem jsonMembers_cons (m : String × Json) (ms : List (String × Json)) :
    ∃ cs, jsonMembers (m :: ms) = '"' :: cs ∧ ms.length < cs.length := by
  induction ms generalizing m with
  | nil => exact ⟨_, rfl, by simp⟩
  | cons m' ms ih =>
    obtain ⟨cs, hcs, hlen⟩ := ih m'
    refine ⟨m.1.toList.flatMap escape ++ '"' :: ':' :: (jsonValue m.2 ++ ',' :: '"' :: cs), ?_, ?_⟩
    · rw [jsonMembers, hcs]
      · simp [jsonMember, quoted]
      · simp
    · simp only [List.length_append, List.length_cons]
      omega

def jsonObject (ms : List (String × Json)) : Bytes := utf8 (.ofList ('{' :: jsonMembers ms))

def fromJsonObject (bs : Bytes) : Option (List (String × Json)) := do
  let s ← fromUtf8 bs
  match s.toList with
  | ['{', '}'] => some []
  | '{' :: cs => readMembers cs.length cs
  | _ => none

theorem fromJsonObject_jsonObject {ms : List (String × Json)} (hms : ∀ m ∈ ms, m.2.Scalar) :
    fromJsonObject (jsonObject ms) = some ms := by
  simp only [fromJsonObject, jsonObject, fromUtf8_utf8, Option.bind_eq_bind, Option.bind_some,
    String.toList_ofList]
  cases ms with
  | nil => rfl
  | cons m ms =>
    obtain ⟨cs, hcs, hlen⟩ := jsonMembers_cons m ms
    have hfuel : (m :: ms).length ≤ (jsonMembers (m :: ms)).length := by
      rw [hcs]
      simp only [List.length_cons]
      omega
    have hread := readMembers_jsonMembers hms (by simp) hfuel
    rw [hcs] at hread ⊢
    exact hread

end JsonText

end SvcAuth.TextFormats
