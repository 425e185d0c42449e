import SvcAuth.Handlers
import SvcAuth.TextFormats
import Mathlib.Data.List.DropRight

/-! The client's side of the cookies: what a browser keeps of the lines it is sent, for how
long, and the `Cookie` header it makes of what it holds. In such a header the handlers find
exactly the cookies it was made of. -/
namespace SvcAuth
open TextFormats

section HeaderText

/-- The bytes that `to_str` lets through. -/
def plainByte (b : UInt8) : Bool := (32 ≤ b && b < 127) || b == 9

/-- The characters they stand for. -/
def plain (c : Char) : Bool := (32 ≤ c.toNat && c.toNat < 127) || c.toNat == 9

theorem plainByte_iff {b : UInt8} :
    plainByte b = true ↔ (32 ≤ b.toNat ∧ b.toNat < 127) ∨ b.toNat = 9 := by
  simp [plainByte, UInt8.le_iff_toNat_le, UInt8.lt_iff_toNat_lt, ← UInt8.toNat_inj]

theorem plain_iff {c : Char} : plain c = true ↔ (32 ≤ c.toNat ∧ c.toNat < 127) ∨ c.toNat = 9 := by
  simp [plain]

theorem encodeChar_ascii {c : Char} (h : c.toNat < 128) :
    String.utf8EncodeChar c = [UInt8.ofNat c.toNat] := by
  have hv : c.val.toNat ≤ 0x7f := by
    have hc : c.toNat = c.val.toNat := rfl
    omega
  unfold String.utf8EncodeChar
  exact if_pos hv

theorem encodeChar_high {c : Char} (h : 128 ≤ c.toNat) :
    ∀ b ∈ String.utf8EncodeChar c, 128 ≤ b.toNat := by
  have hc : c.toNat = c.val.toNat := rfl
  intro b hb
  unfold String.utf8EncodeChar at hb
  simp only at hb
  split at hb
  · omega
  · split at hb
    · simp at hb
      rcases hb with rfl | rfl <;> simp <;> omega
    · split at hb
      · simp at hb
        rcases hb with rfl | rfl | rfl <;> simp <;> omega
      · simp at hb
        rcases hb with rfl | rfl | rfl | rfl <;> simp <;> omega

theorem encodeChar_plain (c : Char) : (String.utf8EncodeChar c).all plainByte = plain c := by
  rw [Bool.eq_iff_iff, List.all_eq_true, plain_iff]
  rcases lt_or_ge c.toNat 128 with h | h
  · have hbyte : (UInt8.ofNat c.toNat).toNat = c.toNat := by
      simp only [UInt8.toNat_ofNat']
      omega
    rw [encodeChar_ascii h]
    simp [plainByte_iff, hbyte]
  · constructor
    · intro hall
      obtain ⟨b, bs, hbs⟩ := List.exists_cons_of_ne_nil (String.utf8EncodeChar_ne_nil (c := c))
      have hb : b ∈ String.utf8EncodeChar c := hbs ▸ .head _
      have hhigh := encodeChar_high h b hb
      have hplain := plainByte_iff.mp (hall b hb)
      omega
    · intro hplain
      omega

theorem utf8_ofList (cs : List Char) : utf8 (.ofList cs) = cs.flatMap String.utf8EncodeChar := by
  simp [utf8, List.utf8Encode]

theorem utf8_plain {cs : List Char} (h : cs.all plain = true) :
    (utf8 (.ofList cs)).map (fun b => Char.ofNat b.toNat) = cs := by
  rw [utf8_ofList]
  induction cs with
  | nil => rfl
  | cons c cs ih =>
    rw [List.all_cons, Bool.and_eq_true] at h
    have hc := plain_iff.mp h.1
    have hbyte : (UInt8.ofNat c.toNat).toNat = c.toNat := by
      simp only [UInt8.toNat_ofNat']
      omega
    rw [List.flatMap_cons, encodeChar_ascii (by omega), List.map_append, ih h.2, List.map_singleton,
      hbyte, Char.ofNat_toNat]
    rfl

theorem utf8_all_plain (cs : List Char) : (utf8 (.ofList cs)).all plainByte = cs.all plain := by
  rw [utf8_ofList, List.all_flatMap]
  simp only [encodeChar_plain]

theorem toStr_utf8 (cs : List Char) : HeaderValue.toStr (utf8 (.ofList cs)) =
    if cs.all plain then some (.ofList cs) else none := by
  unfold HeaderValue.toStr
  change (if (utf8 (.ofList cs)).all plainByte = true then _ else _) = _
  rw [utf8_all_plain]
  split
  · rename_i h
    rw [utf8_plain h]
  · rfl

end HeaderText

section CookieLine

/-- A name a cookie may have. -/
def TokenName (name : List Char) : Prop :=
  name ≠ [] ∧ ∀ c ∈ name, c ≠ '=' ∧ c ≠ ';' ∧ c.isWhitespace = false

/-- The same, one character after the other. -/
def tokenName (name : List Char) : Bool :=
  !name.isEmpty && name.all fun c => c != '=' && c != ';' && !c.isWhitespace

theorem tokenName_iff {name : List Char} : tokenName name = true ↔ TokenName name := by
  simp [tokenName, TokenName, and_assoc]

instance (name : List Char) : Decidable (TokenName name) :=
  decidable_of_iff (tokenName name = true) tokenName_iff

/-- A name and a value as they stand in a `Cookie` header, the value without a space at
its end. -/
structure CookiePair where
  name : List Char
  value : List Char
  name_token : TokenName name
  value_cut : ';' ∉ value
  value_trimmed : value.reverse.dropWhile Char.isWhitespace = value.reverse

def CookiePair.text (p : CookiePair) : List Char := p.name ++ '=' :: p.value

/-- The `Cookie` header of these pairs. -/
def cookieLine : List CookiePair → List Char
  | [] => []
  | [p] => p.text
  | p :: q :: ps => p.text ++ ';' :: ' ' :: cookieLine (q :: ps)

/-- What `extract_cookie` makes of one piece of the header. -/
def pieceValue (name piece : List Char) : Option String :=
  (stripPrefix (name ++ ['=']) (trim piece)).map String.ofList

theorem pieceValue_space (name piece : List Char) :
    pieceValue name (' ' :: piece) = pieceValue name piece :=
  rfl

theorem CookiePair.trim_text (p : CookiePair) : trim p.text = p.text := by
  obtain ⟨c, cs, hname⟩ := List.exists_cons_of_ne_nil p.name_token.1
  have hc := (p.name_token.2 c (hname ▸ .head _)).2.2
  have hfront : p.text.dropWhile Char.isWhitespace = p.text := by
    rw [text, hname, List.cons_append, List.dropWhile_cons_of_neg (by simp [hc])]
  have hback : p.text.reverse.dropWhile Char.isWhitespace = p.text.reverse := by
    rw [text, List.reverse_append, List.reverse_cons, List.append_assoc, List.singleton_append,
      List.dropWhile_append, p.value_trimmed]
    split
    · rename_i hempty
      rw [List.isEmpty_iff.mp hempty]
      rfl
    · rfl
  rw [trim, hfront, hback, List.reverse_reverse]

theorem takeWhile_cut {c : Char} {cs rest : List Char} (h : c ∉ cs) :
    (cs ++ c :: rest).takeWhile (fun d => d ≠ c) = cs := by
  have hall : ∀ d ∈ cs, (decide (d ≠ c)) = true := by
    intro d hd
    simpa using ne_of_mem_of_not_mem hd h
  rw [List.takeWhile_append_of_pos hall, List.takeWhile_cons_of_neg (by simp), List.append_nil]

theorem CookiePair.pieceValue_text (p : CookiePair) {name : List Char}
    (hname : '=' ∉ name) :
    pieceValue name p.text = if p.name = name then some (.ofList p.value) else none := by
  have hown : '=' ∉ p.name := fun h => (p.name_token.2 _ h).1 rfl
  have hprefix : name ++ ['='] <+: p.text ↔ p.name = name := by
    constructor
    · rintro ⟨rest, h⟩
      rw [text, List.append_assoc, List.singleton_append] at h
      have hcut := congrArg (List.takeWhile fun c => c ≠ '=') h
      rw [takeWhile_cut hname, takeWhile_cut hown] at hcut
      exact hcut.symm
    · rintro rfl
      exact ⟨p.value, by simp [text]⟩
  rw [pieceValue, p.trim_text, stripPrefix]
  simp only [List.isPrefixOf_iff_prefix, hprefix]
  split
  · rename_i h
    subst h
    simp [text]
  · rfl

theorem find_space {f : List Char → Option String} (hf : ∀ piece, f (' ' :: piece) = f piece)
    (cs : List Char) :
    ((' ' :: cs).splitOn ';').findSome? f = (cs.splitOn ';').findSome? f := by
  obtain ⟨piece, pieces, hsplit⟩ := List.exists_cons_of_ne_nil (List.splitOn_ne_nil ';' cs)
  rw [List.splitOn_cons_eq_if_modifyHead, if_neg (by decide), hsplit, List.modifyHead_cons,
    List.findSome?_cons, List.findSome?_cons, hf]

theorem CookiePair.text_uncut (p : CookiePair) : ';' ∉ p.text := by
  intro h
  rcases List.mem_append.mp h with h | h
  · exact (p.name_token.2 _ h).2.1 rfl
  · rcases List.mem_cons.mp h with h | h
    · cases h
    · exact p.value_cut h

theorem find_cookieLine (ps : List CookiePair) {name : List Char} (hname : '=' ∉ name) :
    ((cookieLine ps).splitOn ';').findSome? (pieceValue name) =
      (ps.find? fun p => p.name = name).map fun p => String.ofList p.value := by
  induction ps using cookieLine.induct with
  | case1 =>
    have hnone : pieceValue name [] = none := by
      simp [pieceValue, stripPrefix, trim]
    simp [cookieLine, List.splitOn_nil, hnone]
  | case2 p =>
    rw [cookieLine, List.splitOn_eq_singleton p.text_uncut, List.findSome?_cons,
      p.pieceValue_text hname]
    by_cases h : p.name = name
    · simp [h]
    · simp [h]
  | case3 p q ps ih =>
    rw [cookieLine, List.splitOn_append_cons_self_of_not_mem p.text_uncut, List.findSome?_cons,
      find_space (pieceValue_space name), ih, p.pieceValue_text hname]
    generalize q :: ps = rest
    by_cases h : p.name = name
    · simp [h]
    · simp [h]

/-- The headers of a request with these cookies and nothing else. -/
def cookieHeaders (ps : List CookiePair) : HeaderMap :=
  ⟨if ps.isEmpty then none else some (utf8 (.ofList (cookieLine ps))), none⟩

theorem extract_cookieHeaders (ps : List CookiePair) {name : String} (hname : '=' ∉ name.toList) :
    extractCookie (cookieHeaders ps) name =
      if (cookieLine ps).all plain then
        (ps.find? fun p => p.name = name.toList).map fun p => String.ofList p.value
      else none := by
  cases ps with
  | nil => rfl
  | cons p ps =>
    have hpieces := find_cookieLine (p :: ps) hname
    simp only [extractCookie, cookieHeaders, List.isEmpty_cons, Bool.false_eq_true, if_false,
      Option.bind_eq_bind, Option.bind_some, toStr_utf8]
    by_cases hplain : (cookieLine (p :: ps)).all plain
    · simp only [if_pos hplain, Option.bind_some, String.toList_ofList, String.toList_append]
      exact hpieces
    · simp only [if_neg hplain, Option.bind_none]

theorem extract_absent {ps : List CookiePair} {name : String} (hname : '=' ∉ name.toList)
    (habsent : ∀ p ∈ ps, p.name ≠ name.toList) : extractCookie (cookieHeaders ps) name = none := by
  have hfind : (ps.find? fun p => p.name = name.toList) = none := by
    simpa using habsent
  rw [extract_cookieHeaders ps hname, hfind]
  simp

/-- Text that stands in a header as it is. -/
def Clean (cs : List Char) : Prop := ∀ c ∈ cs, plain c = true ∧ c ≠ ';' ∧ c.isWhitespace = false

theorem clean_of_all {cs : List Char}
    (h : (cs.all fun c => plain c && c != ';' && !c.isWhitespace) = true) : Clean cs := by
  simpa [Clean, and_assoc] using h

theorem clean_compact {head body signature : String} (hhead : Clean head.toList)
    (hbody : Clean body.toList) (hsignature : Clean signature.toList) :
    Clean (JsonWebToken.compact head body signature).toList := by
  have hdot : Clean ['.'] := clean_of_all (by decide)
  intro c hc
  simp only [JsonWebToken.compact, String.toList_append, List.mem_append] at hc
  rcases hc with (((hc | hc) | hc) | hc) | hc
  · exact hhead c hc
  · exact hdot c hc
  · exact hbody c hc
  · exact hdot c hc
  · exact hsignature c hc

def CookiePair.clean (name value : List Char) (hname : TokenName name) (hvalue : Clean value) :
    CookiePair where
  name := name
  value := value
  name_token := hname
  value_cut h := (hvalue _ h).2.1 rfl
  value_trimmed := by
    refine List.dropWhile_eq_self_iff.mpr fun h => ?_
    have hlast := (hvalue _ (List.mem_reverse.mp (List.getElem_mem h))).2.2
    simpa using hlast

theorem cookieLine_plain (ps : List CookiePair)
    (h : ∀ p ∈ ps, p.name.all plain = true ∧ p.value.all plain = true) :
    (cookieLine ps).all plain = true := by
  have htext : ∀ p ∈ ps, p.text.all plain = true := by
    intro p hp
    have hequals : plain '=' = true := by decide
    rw [CookiePair.text, List.all_append, List.all_cons, (h p hp).1, (h p hp).2, hequals]
    rfl
  clear h
  induction ps using cookieLine.induct with
  | case1 => rfl
  | case2 p => exact htext p (.head _)
  | case3 p q ps ih =>
    have hrest := ih fun p hp => htext p (.tail _ hp)
    have hcut : plain ';' = true ∧ plain ' ' = true := by decide
    rw [cookieLine, List.all_append, List.all_cons, List.all_cons, htext p (.head _), hrest, hcut.1,
      hcut.2]
    rfl

theorem CookieConfig.accessCookieName_token (c : CookieConfig) :
    TokenName c.accessCookieName.toList := by
  unfold accessCookieName
  cases c.secure <;> decide

theorem CookieConfig.refreshCookieName_token (c : CookieConfig) :
    TokenName c.refreshCookieName.toList := by
  unfold refreshCookieName
  cases c.secure <;> decide

/-- The headers of a client with both tokens. -/
def tokenHeaders (config : CookieConfig) {access refresh : String} (haccess : Clean access.toList)
    (hrefresh : Clean refresh.toList) : HeaderMap :=
  cookieHeaders [.clean _ _ config.accessCookieName_token haccess,
    .clean _ _ config.refreshCookieName_token hrefresh]

theorem extract_tokenHeaders (config : CookieConfig) {access refresh : String}
    (haccess : Clean access.toList) (hrefresh : Clean refresh.toList) :
    extractAccessCookie (tokenHeaders config haccess hrefresh) config = some access ∧
      extractRefreshCookie (tokenHeaders config haccess hrefresh) config = some refresh := by
  have hnames : config.accessCookieName.toList.all plain = true ∧
      config.refreshCookieName.toList.all plain = true ∧
      config.accessCookieName.toList ≠ config.refreshCookieName.toList := by
    unfold CookieConfig.accessCookieName CookieConfig.refreshCookieName
    cases config.secure <;> decide
  have hplain : ∀ {cs : List Char}, Clean cs → cs.all plain = true := fun h =>
    List.all_eq_true.mpr fun c hc => (h c hc).1
  have hline := cookieLine_plain [.clean _ _ config.accessCookieName_token haccess,
    .clean _ _ config.refreshCookieName_token hrefresh] (by
      simp only [List.forall_mem_cons, List.not_mem_nil, false_implies, implies_true, and_true]
      exact ⟨⟨hnames.1, hplain haccess⟩, hnames.2.1, hplain hrefresh⟩)
  constructor
  · rw [extractAccessCookie, tokenHeaders,
      extract_cookieHeaders _ fun h => (config.accessCookieName_token.2 _ h).1 rfl, if_pos hline]
    simp [CookiePair.clean]
  · rw [extractRefreshCookie, tokenHeaders,
      extract_cookieHeaders _ fun h => (config.refreshCookieName_token.2 _ h).1 rfl, if_pos hline]
    simp [CookiePair.clean, hnames.2.2]

end CookieLine

section Jar

theorem mem_trim {c : Char} {cs : List Char} (h : c ∈ trim cs) : c ∈ cs := by
  have hback := List.dropWhile_subset _ (List.mem_reverse.mp h)
  exact List.dropWhile_subset _ (List.mem_reverse.mp hback)

/-- The pair in front of the attributes of a line; a line with another name is ignored. -/
def CookiePair.ofLine (line : SetCookie) : Option CookiePair :=
  if h : TokenName line.name.toList then
    some {
      name := line.name.toList
      value := trim (line.value.toList.takeWhile fun c => c ≠ ';')
      name_token := h
      value_cut := by
        intro h
        have hcut := List.mem_takeWhile_imp (mem_trim h)
        simp at hcut
      value_trimmed := by
        rw [trim, List.reverse_reverse, List.dropWhile_idempotent] }
  else none

/-- A cookie a browser keeps, and the moment it drops it, if there is one. -/
structure KeptCookie where
  pair : CookiePair
  dropped : Option ℕ

/-- The cookies of the service a browser keeps. -/
abbrev Jar := List KeptCookie

namespace Jar

/-- A line received at `now` replaces the cookie of its name. -/
def receive (now : ℕ) (jar : Jar) (line : SetCookie) : Jar :=
  match CookiePair.ofLine line with
  | none => jar
  | some pair => jar.filter (fun c => c.pair.name ≠ pair.name) ++
      [⟨pair, line.maxAge.map fun age => now + age.toNat⟩]

def receiveAll (now : ℕ) (jar : Jar) (r : Response) : Jar := r.setCookie.foldl (receive now) jar

/-- The cookies not yet dropped at `now`. -/
def held (jar : Jar) (now : ℕ) : List CookiePair :=
  (jar.filter fun c => c.dropped.all fun drop => now < drop).map KeptCookie.pair

/-- What the browser sends at `now`. -/
def headers (jar : Jar) (now : ℕ) : HeaderMap := cookieHeaders (jar.held now)

/-- Every cookie of this name is dropped by then. -/
def GoneBy (jar : Jar) (name : String) (moment : ℕ) : Prop :=
  ∀ c ∈ jar, c.pair.name = name.toList → ∃ drop, c.dropped = some drop ∧ drop ≤ moment

variable {jar : Jar} {now moment : ℕ} {line : SetCookie} {name : String}

theorem receive_other (hne : line.name ≠ name) (h : jar.GoneBy name moment) :
    (jar.receive now line).GoneBy name moment := by
  unfold receive CookiePair.ofLine
  split
  · exact h
  · rename_i pair hpair
    split at hpair
    · cases hpair
      intro c hc hname
      rcases List.mem_append.mp hc with hc | hc
      · exact h c (List.mem_filter.mp hc).1 hname
      · rw [List.mem_singleton.mp hc] at hname
        exact absurd (String.toList_injective hname) hne
    · cases hpair

theorem receive_same {age : UInt64} (hname : TokenName line.name.toList)
    (hage : line.maxAge = some age) (h : now + age.toNat ≤ moment) :
    (jar.receive now line).GoneBy line.name moment := by
  unfold receive CookiePair.ofLine
  rw [dif_pos hname]
  intro c hc hsame
  rcases List.mem_append.mp hc with hc | hc
  · exact absurd hsame (by simpa using (List.mem_filter.mp hc).2)
  · rw [List.mem_singleton.mp hc]
    exact ⟨now + age.toNat, by simp [hage], h⟩

theorem GoneBy.absent (h : jar.GoneBy name moment) (hlate : moment ≤ now) :
    ∀ p ∈ jar.held now, p.name ≠ name.toList := by
  intro p hp hname
  obtain ⟨c, hc, rfl⟩ := List.mem_map.mp hp
  obtain ⟨hmem, hkept⟩ := List.mem_filter.mp hc
  obtain ⟨drop, hdrop, hle⟩ := h c hmem hname
  simp only [hdrop, Option.all_some, decide_eq_true_eq] at hkept
  omega

end Jar

end Jar

end SvcAuth
