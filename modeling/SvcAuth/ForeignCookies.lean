import SvcAuth.WrittenCookies

/-! Cookies of other applications in the same `Cookie` header. The header is read as a whole
before it is cut, so a single byte outside visible ASCII hides every cookie; and names are
compared behind leading blanks. Any other foreign pair makes no difference. -/
namespace SvcAuth
open TextFormats

/-- A pair as it may stand in a header: any bytes but control characters and semicolons. -/
structure RawPair where
  name : Bytes
  value : Bytes
  admitted : ∀ b ∈ name ++ value, (32 ≤ b ∧ b ≠ 127 ∨ b = 9) ∧ b ≠ 59

def RawPair.text (p : RawPair) : Bytes := p.name ++ 61 :: p.value

/-- The two cookies that carry tokens. -/
inductive TokenCookie
  | access | refresh
  deriving DecidableEq, Repr

def CookieConfig.tokenCookieName (c : CookieConfig) : TokenCookie → String
  | .access => c.accessCookieName
  | .refresh => c.refreshCookieName

def extractTokenCookie (headers : HeaderMap) (c : CookieConfig) : TokenCookie → Option String
  | .access => extractAccessCookie headers c
  | .refresh => extractRefreshCookie headers c

/-- The request with these cookies. -/
def rawHeaders (ps : List RawPair) : HeaderMap :=
  ⟨some (cookieValue (ps.map RawPair.text)), none⟩

/-- Pairs of another name that satisfy `F` never matter: two headers whose other pairs do,
and that agree on the pairs of this name, give the same cookie. -/
def Inert (config : CookieConfig) (kind : TokenCookie) (F : RawPair → Prop) : Prop :=
  ∀ ps qs : List RawPair,
    (∀ p ∈ ps ++ qs, p.name = utf8 (config.tokenCookieName kind) ∨ F p) →
    ps.filter (fun p => p.name = utf8 (config.tokenCookieName kind)) =
      qs.filter (fun p => p.name = utf8 (config.tokenCookieName kind)) →
    extractTokenCookie (rawHeaders ps) config kind = extractTokenCookie (rawHeaders qs) config kind

/-- Every byte of the pair is visible ASCII, a space or a tab. -/
def RawPair.Readable (p : RawPair) : Prop := p.text.all plainByte = true

/-- Behind leading blanks the pair begins with this name and an equals sign. -/
def RawPair.Mimics (p : RawPair) (name : String) : Prop :=
  name.toList ++ ['='] <+: trim (latin p.text)

section Extraction
variable {config : CookieConfig} {kind : TokenCookie} {name : String} {p : RawPair}
  {ps : List RawPair}

theorem RawPair.text_uncut (p : RawPair) : 59 ∉ p.text := by
  intro h
  rcases List.mem_append.mp h with h | h
  · exact (p.admitted _ (List.mem_append_left _ h)).2 rfl
  · rcases List.mem_cons.mp h with h | h
    · cases h
    · exact (p.admitted _ (List.mem_append_right _ h)).2 rfl

theorem extractTokenCookie_eq (headers : HeaderMap) (config : CookieConfig) (kind : TokenCookie) :
    extractTokenCookie headers config kind =
      extractCookie headers (config.tokenCookieName kind) := by
  cases kind <;> rfl

theorem extract_rawHeaders (ps : List RawPair) (name : String) :
    extractCookie (rawHeaders ps) name =
      if ps.all fun p => p.text.all plainByte then
        ps.findSome? fun p => pieceValue name.toList (latin p.text)
      else none := by
  have hcut : ∀ piece ∈ ps.map RawPair.text, 59 ∉ piece := by
    intro piece hpiece
    obtain ⟨p, -, rfl⟩ := List.mem_map.mp hpiece
    exact p.text_uncut
  rw [extract_pieces rfl hcut, List.all_map, List.findSome?_map]
  rfl

theorem RawPair.mimics_iff : p.Mimics name ↔ pieceValue name.toList (latin p.text) ≠ none := by
  unfold Mimics pieceValue stripPrefix
  rw [← List.isPrefixOf_iff_prefix]
  split
  · rename_i h
    simp [h]
  · rename_i h
    simp [h]

/-- Pairs that do not read as the cookie drop out of the search. -/
theorem find_filtered (hsilent : ∀ p ∈ ps, p.name ≠ utf8 name → ¬ p.Mimics name) :
    (ps.findSome? fun p => pieceValue name.toList (latin p.text)) =
      (ps.filter fun p => p.name = utf8 name).findSome? fun p =>
        pieceValue name.toList (latin p.text) := by
  induction ps with
  | nil => rfl
  | cons p ps ih =>
    have hrest := ih fun q hq => hsilent q (.tail _ hq)
    by_cases hown : p.name = utf8 name
    · rw [List.filter_cons_of_pos (by simpa using hown), List.findSome?_cons, List.findSome?_cons,
        hrest]
    · have hnone : pieceValue name.toList (latin p.text) = none := by
        by_contra hsome
        exact hsilent p (.head _) hown (RawPair.mimics_iff.mpr hsome)
      rw [List.filter_cons_of_neg (by simpa using hown), List.findSome?_cons, hnone]
      exact hrest

theorem extract_filtered (hharmless : ∀ p ∈ ps, p.name ≠ utf8 name →
    p.Readable ∧ ¬ p.Mimics name) : extractCookie (rawHeaders ps) name =
      extractCookie (rawHeaders (ps.filter fun p => p.name = utf8 name)) name := by
  have hreadable : (ps.all fun p => p.text.all plainByte) =
      (ps.filter fun p => p.name = utf8 name).all fun p => p.text.all plainByte := by
    rw [Bool.eq_iff_iff, List.all_eq_true, List.all_eq_true]
    constructor
    · intro hall p hp
      exact hall p (List.mem_filter.mp hp).1
    · intro hall p hp
      by_cases hown : p.name = utf8 name
      · exact hall p (List.mem_filter.mpr ⟨hp, by simpa using hown⟩)
      · exact (hharmless p hp hown).1
  rw [extract_rawHeaders, extract_rawHeaders, hreadable,
    find_filtered fun p hp hown => (hharmless p hp hown).2]

end Extraction

section Foreign
variable {config : CookieConfig} {kind : TokenCookie} {F : RawPair → Prop}

theorem CookieConfig.tokenCookieName_plain (config : CookieConfig) (kind : TokenCookie) :
    TokenName (config.tokenCookieName kind).toList ∧
      (config.tokenCookieName kind).toList.all plain = true ∧
      ∀ b ∈ utf8 (config.tokenCookieName kind), (32 ≤ b ∧ b ≠ 127 ∨ b = 9) ∧ b ≠ 59 := by
  unfold tokenCookieName accessCookieName refreshCookieName
  cases kind <;> cases config.secure <;> decide +kernel

/-- The cookie itself, with this value. -/
def ownPair (config : CookieConfig) (kind : TokenCookie) (value : Bytes)
    (hvalue : ∀ b ∈ value, (32 ≤ b ∧ b ≠ 127 ∨ b = 9) ∧ b ≠ 59) : RawPair where
  name := utf8 (config.tokenCookieName kind)
  value := value
  admitted b hb := by
    rcases List.mem_append.mp hb with hb | hb
    · exact (config.tokenCookieName_plain kind).2.2 b hb
    · exact hvalue b hb

/-- The empty cookie, and one that says `a`. -/
def emptyPair (config : CookieConfig) (kind : TokenCookie) : RawPair :=
  ownPair config kind [] (by simp)

def letterPair (config : CookieConfig) (kind : TokenCookie) : RawPair :=
  ownPair config kind [97] (by simp)

theorem ownPair_reads {value : Bytes} {hvalue : ∀ b ∈ value, (32 ≤ b ∧ b ≠ 127 ∨ b = 9) ∧ b ≠ 59}
    (hplain : value.all plainByte = true) (hclean : Clean (latin value)) :
    (ownPair config kind value hvalue).Readable ∧
      pieceValue (config.tokenCookieName kind).toList
        (latin (ownPair config kind value hvalue).text) = some (.ofList (latin value)) := by
  obtain ⟨htoken, hname, -⟩ := config.tokenCookieName_plain kind
  have hbytes : (utf8 (config.tokenCookieName kind)).all plainByte = true := by
    rw [← String.ofList_toList (s := config.tokenCookieName kind), utf8_all_plain]
    exact hname
  have hlatin : latin (utf8 (config.tokenCookieName kind)) =
      (config.tokenCookieName kind).toList := by
    have hback := utf8_plain hname
    rwa [String.ofList_toList] at hback
  have htext : latin (ownPair config kind value hvalue).text =
      (CookiePair.clean _ _ htoken hclean).text := by
    have hcut : latin (ownPair config kind value hvalue).text =
        latin (utf8 (config.tokenCookieName kind)) ++ '=' :: latin value := by
      simp [ownPair, RawPair.text, latin]
    rw [hcut, hlatin]
    rfl
  constructor
  · have hsign : plainByte 61 = true := by decide
    simp only [RawPair.Readable, RawPair.text, ownPair, List.all_append, List.all_cons, hbytes,
      hsign, hplain, Bool.and_self]
  · rw [htext, CookiePair.pieceValue_text _ fun h => (htoken.2 _ h).1 rfl]
    exact if_pos rfl

/-- A foreign pair in front of a readable cookie hides it, replaces it or does nothing. -/
theorem extract_behind {p own : RawPair} {name value : String} (hreads : own.Readable)
    (hvalue : pieceValue name.toList (latin own.text) = some value) :
    extractCookie (rawHeaders [p, own]) name =
      if p.text.all plainByte then (pieceValue name.toList (latin p.text)).or (some value)
      else none := by
  rw [extract_rawHeaders, List.all_cons, List.all_cons, List.all_nil,
    show own.text.all plainByte = true from hreads, Bool.and_true, Bool.and_true,
    List.findSome?_cons, List.findSome?_cons, hvalue]
  congr 1
  cases pieceValue name.toList (latin p.text) <;> rfl

theorem extract_alone {own : RawPair} {name value : String} (hreads : own.Readable)
    (hvalue : pieceValue name.toList (latin own.text) = some value) :
    extractCookie (rawHeaders [own]) name = some value := by
  rw [extract_rawHeaders, List.all_cons, List.all_nil,
    show own.text.all plainByte = true from hreads, List.findSome?_cons, hvalue]
  rfl

/-- Foreign pairs never matter exactly if each of them is readable and none begins like the
cookie that is looked for. -/
theorem foreign_inert_iff (config : CookieConfig) (kind : TokenCookie) (F : RawPair → Prop) :
    Inert config kind F ↔ ∀ p, p.name ≠ utf8 (config.tokenCookieName kind) → F p →
      p.Readable ∧ ¬ p.Mimics (config.tokenCookieName kind) := by
  constructor
  · intro hinert p hforeign hp
    have hsame : ∀ own : RawPair, own.name = utf8 (config.tokenCookieName kind) →
        extractCookie (rawHeaders [p, own]) (config.tokenCookieName kind) =
          extractCookie (rawHeaders [own]) (config.tokenCookieName kind) := by
      intro own hown
      rw [← extractTokenCookie_eq, ← extractTokenCookie_eq]
      refine hinert _ _ (fun q hq => ?_) ?_
      · simp only [List.cons_append, List.nil_append, List.mem_cons, List.not_mem_nil,
          or_false] at hq
        rcases hq with rfl | rfl | rfl
        · exact .inr hp
        · exact .inl hown
        · exact .inl hown
      · rw [List.filter_cons_of_neg (by simpa using hforeign)]
    obtain ⟨hempty, hnothing⟩ : (emptyPair config kind).Readable ∧
        pieceValue (config.tokenCookieName kind).toList (latin (emptyPair config kind).text) =
          some (.ofList (latin [])) := ownPair_reads rfl (clean_of_all rfl)
    obtain ⟨hletter, ha⟩ : (letterPair config kind).Readable ∧
        pieceValue (config.tokenCookieName kind).toList (latin (letterPair config kind).text) =
          some (.ofList (latin [97])) := ownPair_reads rfl (clean_of_all rfl)
    have hfirst := hsame (emptyPair config kind) rfl
    have hsecond := hsame (letterPair config kind) rfl
    rw [extract_behind hempty hnothing, extract_alone hempty hnothing] at hfirst
    rw [extract_behind hletter ha, extract_alone hletter ha] at hsecond
    have hreadable : p.text.all plainByte = true := by
      by_contra hnot
      rw [if_neg hnot] at hfirst
      cases hfirst
    refine ⟨hreadable, fun hmimics => ?_⟩
    -- a pair that is read instead cannot have both values
    obtain ⟨value, hread⟩ := Option.ne_none_iff_exists'.mp (RawPair.mimics_iff.mp hmimics)
    rw [if_pos hreadable, hread] at hfirst hsecond
    exact absurd (hfirst.symm.trans hsecond) (by decide)
  · intro hharmless ps qs hpairs hown
    have hdrop : ∀ rs ⊆ ps ++ qs, ∀ p ∈ rs, p.name ≠ utf8 (config.tokenCookieName kind) →
        p.Readable ∧ ¬ p.Mimics (config.tokenCookieName kind) := fun rs hrs p hp hforeign =>
      hharmless p hforeign ((hpairs p (hrs hp)).resolve_left hforeign)
    rw [extractTokenCookie_eq, extractTokenCookie_eq,
      extract_filtered (hdrop ps (List.subset_append_left _ _)), hown,
      ← extract_filtered (hdrop qs (List.subset_append_right _ _))]

/-- A pair of another application with a byte outside ASCII. -/
def latinPair : RawPair := ⟨[120], [0xE9], by simp⟩

/-- It hides the access token: foreign cookies do matter. -/
theorem foreign_hides : ¬ Inert Sample.state.cookieConfig .access fun _ => True := by
  intro hinert
  have hsame := hinert [latinPair, letterPair Sample.state.cookieConfig .access]
    [letterPair Sample.state.cookieConfig .access] (fun _ _ => .inr trivial) rfl
  exact absurd hsame (by decide)

end Foreign

end SvcAuth
