import SvcAuth.CookieJar
import SvcAuth.TokenKinds

/-! From a minted token to the cookie that brings it back: the line that sets it, the pair a
browser takes from that line, and a `Cookie` header with that pair among others. A minted
token is made of characters that pass through both formats as they are. -/
namespace SvcAuth
open Interleave JsonWebToken TextFormats

section Pieces

/-- The characters that header bytes stand for. -/
def latin (bs : Bytes) : List Char := bs.map fun b => Char.ofNat b.toNat

/-- A `Cookie` header: pieces with a semicolon and a space in between. -/
def cookieValue (pieces : List Bytes) : HeaderValue := [59, 32].intercalate pieces

theorem cookieValue_cons (p q : Bytes) (pieces : List Bytes) :
    cookieValue (p :: q :: pieces) = p ++ 59 :: 32 :: cookieValue (q :: pieces) := by
  simp [cookieValue, List.intercalate, List.intersperse]

theorem cookieValue_plain (pieces : List Bytes) :
    (cookieValue pieces).all plainByte = pieces.all fun p => p.all plainByte := by
  have hcut : plainByte 59 = true ∧ plainByte 32 = true := by decide
  induction pieces with
  | nil => rfl
  | cons p pieces ih =>
    cases pieces with
    | nil => simp [cookieValue, List.intercalate]
    | cons q pieces =>
      rw [cookieValue_cons, List.all_append, List.all_cons, List.all_cons, ih, hcut.1, hcut.2]
      rfl

theorem latin_uncut {p : Bytes} (h : 59 ∉ p) : ';' ∉ latin p := by
  have hsemicolon : ∀ n < 256, Char.ofNat n = ';' → n = 59 := by decide +kernel
  intro hmem
  obtain ⟨b, hb, hchar⟩ := List.mem_map.mp hmem
  have hb59 : b = 59 := UInt8.toNat_inj.mp (hsemicolon b.toNat b.toNat_lt hchar)
  exact h (hb59 ▸ hb)

theorem find_pieces {pieces : List Bytes} (hcut : ∀ p ∈ pieces, 59 ∉ p) (name : List Char) :
    ((latin (cookieValue pieces)).splitOn ';').findSome? (pieceValue name) =
      pieces.findSome? fun p => pieceValue name (latin p) := by
  induction pieces with
  | nil =>
    have hnone : pieceValue name [] = none := by
      simp [pieceValue, stripPrefix, trim]
    simp [cookieValue, latin, List.splitOn_nil, hnone]
  | cons p pieces ih =>
    have hfirst := latin_uncut (hcut p (.head _))
    cases pieces with
    | nil =>
      have hone : cookieValue [p] = p := by simp [cookieValue, List.intercalate]
      rw [hone, List.splitOn_eq_singleton hfirst]
      simp [List.findSome?]
    | cons q pieces =>
      have hchars : latin (cookieValue (p :: q :: pieces)) =
          latin p ++ ';' :: ' ' :: latin (cookieValue (q :: pieces)) := by
        rw [cookieValue_cons]
        simp [latin]
      rw [hchars, List.splitOn_append_cons_self_of_not_mem hfirst, List.findSome?_cons,
        find_space (pieceValue_space name), ih fun r hr => hcut r (.tail _ hr)]
      rfl

/-- What is read from a header of pieces: nothing if a byte of any piece is not readable,
else the first piece that reads as the cookie. -/
theorem extract_pieces {headers : HeaderMap} {pieces : List Bytes}
    (hcookie : headers.cookie = some (cookieValue pieces)) (hcut : ∀ p ∈ pieces, 59 ∉ p)
    (name : String) : extractCookie headers name =
      if pieces.all fun p => p.all plainByte then
        pieces.findSome? fun p => pieceValue name.toList (latin p)
      else none := by
  have hread : HeaderValue.toStr (cookieValue pieces) =
      if (pieces.all fun p => p.all plainByte) then some (.ofList (latin (cookieValue pieces)))
      else none := by
    rw [← cookieValue_plain]
    rfl
  rw [extractCookie, hcookie, Option.bind_eq_bind, Option.bind_eq_bind, Option.bind_some, hread]
  split
  · rw [Option.bind_some]
    have hfind := find_pieces hcut name.toList
    simp only [String.toList_ofList, String.toList_append]
    exact hfind
  · rfl

/-- The name a piece has, if it has one: what stands in front of its first equals sign,
without leading blanks. -/
def pieceName (piece : List Char) : Option (List Char) :=
  if '=' ∈ piece then
    some ((piece.dropWhile Char.isWhitespace).takeWhile fun c => c ≠ '=')
  else none

theorem pieceValue_other {name piece : List Char} (hname : '=' ∉ name)
    (h : pieceName piece ≠ some name) : pieceValue name piece = none := by
  rw [pieceValue, stripPrefix]
  split
  · rename_i hprefix
    rw [List.isPrefixOf_iff_prefix] at hprefix
    have hfront : trim piece <+: piece.dropWhile Char.isWhitespace := List.rdropWhile_prefix _ _
    obtain ⟨rest, hrest⟩ := hprefix.trans hfront
    rw [List.append_assoc, List.singleton_append] at hrest
    have hmem : '=' ∈ piece :=
      List.dropWhile_subset _ (hrest ▸ List.mem_append_right _ (.head _))
    refine absurd ?_ h
    rw [pieceName, if_pos hmem, ← hrest, takeWhile_cut hname]
  · rfl

end Pieces

section Tokens
variable {D : Deps}

/-- The crates write base64url: the segments of a token are in its alphabet. -/
structure SegmentsBase64 (D : Deps) : Prop where
  encoded : ∀ bytes, ∀ c ∈ (D.b64Encode bytes).toList, c ∈ alphabet
  signed : ∀ key alg message, ∀ c ∈ (D.cryptoSign key alg message).toList, c ∈ alphabet

theorem clean_token (h : SegmentsBase64 D) (ms : List (String × Json)) (secret : String) :
    Clean (D.hmacToken ms secret).toList := by
  have halphabet : Clean alphabet := clean_of_all (by decide)
  refine clean_compact ?_ ?_ ?_
  · exact fun c hc => halphabet c (h.encoded _ c hc)
  · exact fun c hc => halphabet c (h.encoded _ c hc)
  · exact fun c hc => halphabet c (h.signed _ _ _ c hc)

end Tokens

section Lines

/-- `HeaderValue::from_str`, which `parse` calls: no control characters but the tab. -/
def HeaderValue.fromStr (s : String) : Option HeaderValue :=
  if (utf8 s).all fun b => (32 ≤ b && b != 127) || b == 9 then some (utf8 s) else none

theorem utf8_uncut {cs : List Char} (hplain : cs.all plain = true) (h : ';' ∉ cs) :
    59 ∉ utf8 (.ofList cs) := by
  intro hmem
  have hchar : ';' ∈ (utf8 (.ofList cs)).map fun b => Char.ofNat b.toNat :=
    List.mem_map.mpr ⟨59, hmem, by decide⟩
  rw [utf8_plain hplain] at hchar
  exact h hchar

theorem fromStr_plain {s : String} (h : s.toList.all plain = true) :
    HeaderValue.fromStr s = some (utf8 s) := by
  refine if_pos (List.all_eq_true.mpr fun b hb => ?_)
  have hplain : (utf8 s).all plainByte = true := by
    rw [← String.ofList_toList (s := s), utf8_all_plain]
    exact h
  have hbyte := plainByte_iff.mp (List.all_eq_true.mp hplain b hb)
  simp only [Bool.or_eq_true, Bool.and_eq_true, bne_iff_ne, beq_iff_eq, decide_eq_true_eq, ne_eq,
    UInt8.le_iff_toNat_le, ← UInt8.toNat_inj]
  rcases hbyte with ⟨hlo, hhi⟩ | htab
  · refine .inl ⟨hlo, ?_⟩
    simp
    omega
  · exact .inr htab

/-- The pair a browser takes from a line: what stands in front of the first semicolon, cut
at its first equals sign, without blanks around. -/
def browserPair (line : List Char) : List Char × List Char :=
  let pair := line.takeWhile fun c => c ≠ ';'
  (trim (pair.takeWhile fun c => c ≠ '='), trim ((pair.dropWhile fun c => c ≠ '=').drop 1))

/-- The pair as a piece of a `Cookie` header. -/
def pairPiece (pair : List Char × List Char) : Bytes := utf8 (.ofList (pair.1 ++ '=' :: pair.2))

/-- A piece that may stand beside the cookie of this name. -/
structure Beside (name : List Char) (piece : Bytes) : Prop where
  readable : piece.all plainByte = true
  uncut : 59 ∉ piece
  other : pieceName (latin piece) ≠ some name

/-- The line is a valid header, and the pair a browser takes from it is read back as this
value from every readable `Cookie` header that has it among cookies of other names. -/
structure ReadsBack (line : SetCookie) (value : String) (extract : HeaderMap → Option String) :
    Prop where
  valid : ∃ header, HeaderValue.fromStr line.render = some header
  read : ∀ headers before after, headers.cookie = some (cookieValue
      (before ++ pairPiece (browserPair line.render.toList) :: after)) →
    (∀ piece ∈ before ++ after, Beside (browserPair line.render.toList).1 piece) →
    extract headers = some value

variable {name value : String} {age : UInt64} {secure : Bool}

theorem trim_clean {cs : List Char} (h : ∀ c ∈ cs, c.isWhitespace = false) : trim cs = cs := by
  have hall : ∀ ds : List Char, (∀ c ∈ ds, c.isWhitespace = false) →
      ds.dropWhile Char.isWhitespace = ds := by
    intro ds hds
    refine List.dropWhile_eq_self_iff.mpr fun hlen => ?_
    simpa using hds _ (List.getElem_mem hlen)
  rw [trim, hall cs h, hall _ (by simpa using h), List.reverse_reverse]

/-- The line begins with the pair and goes on with attributes. -/
theorem render_buildCookie (name value : String) (age : UInt64) (secure : Bool) :
    ∃ attributes, attributes.all plain = true ∧
    (buildCookie name value age secure).render.toList =
      (name.toList ++ '=' :: value.toList) ++ ';' :: attributes := by
  have hage : (toString age.toNat).toList.all plain = true := by
    rw [Nat.toString_eq_ofList_toDigits, String.toList_ofList, List.all_eq_true]
    intro c hc
    have hdigit := Nat.isDigit_of_mem_toDigits (by decide) (by decide) hc
    have hzero : '0'.toNat = 48 := rfl
    have hnine : '9'.toNat = 57 := rfl
    rw [Char.isDigit_iff_toNat] at hdigit
    exact plain_iff.mpr (by omega)
  refine ⟨" HttpOnly".toList ++ (if secure then "; Secure" else "").toList ++
    "; SameSite=Strict; Path=/; Max-Age=".toList ++ (toString age.toNat).toList, ?_, ?_⟩
  · rw [List.all_append, hage, Bool.and_true]
    cases secure <;> decide
  · cases secure <;> simp [buildCookie, SetCookie.render, SameSite.render]

theorem pair_uncut (hname : TokenName name.toList) (hvalue : Clean value.toList) :
    ';' ∉ name.toList ++ '=' :: value.toList := by
  simp only [List.mem_append, List.mem_cons, not_or]
  exact ⟨fun h => (hname.2 _ h).2.1 rfl, by decide, fun h => (hvalue _ h).2.1 rfl⟩

theorem browserPair_buildCookie (hname : TokenName name.toList) (hvalue : Clean value.toList) :
    browserPair (buildCookie name value age secure).render.toList = (name.toList, value.toList) := by
  obtain ⟨attributes, -, hline⟩ := render_buildCookie name value age secure
  have hnot := pair_uncut hname hvalue
  have hequals : '=' ∉ name.toList := fun h => (hname.2 _ h).1 rfl
  have hdrop : (name.toList ++ '=' :: value.toList).dropWhile (fun c => c ≠ '=') =
      '=' :: value.toList := by
    rw [List.dropWhile_append_of_pos, List.dropWhile_cons_of_neg (by simp)]
    intro c hc
    simpa using ne_of_mem_of_not_mem hc hequals
  unfold browserPair
  simp only [hline, takeWhile_cut hnot, takeWhile_cut hequals, hdrop, List.drop_succ_cons,
    List.drop_zero]
  rw [trim_clean fun c hc => (hname.2 c hc).2.2, trim_clean fun c hc => (hvalue c hc).2.2]

/-- Whatever stands beside it, a cookie with a clean value is read back. -/
theorem buildCookie_readsBack (hname : TokenName name.toList)
    (hplain : name.toList.all plain = true) (hvalue : Clean value.toList) :
    ReadsBack (buildCookie name value age secure) value fun headers =>
      extractCookie headers name := by
  have hequals : '=' ∉ name.toList := fun h => (hname.2 _ h).1 rfl
  have hpair : (name.toList ++ '=' :: value.toList).all plain = true := by
    have hvalues : value.toList.all plain = true :=
      List.all_eq_true.mpr fun c hc => (hvalue c hc).1
    have hsign : plain '=' = true := by decide
    rw [List.all_append, List.all_cons, hplain, hvalues, hsign]
    rfl
  constructor
  · obtain ⟨attributes, hattributes, hline⟩ := render_buildCookie name value age secure
    refine ⟨_, fromStr_plain ?_⟩
    have hcut : plain ';' = true := by decide
    rw [hline, List.all_append, hpair, List.all_cons, hcut, hattributes]
    rfl
  · intro headers before after hcookie hbeside
    rw [browserPair_buildCookie hname hvalue] at hcookie hbeside
    have hown : latin (pairPiece (name.toList, value.toList)) = name.toList ++ '=' :: value.toList :=
      utf8_plain hpair
    have huncut : 59 ∉ pairPiece (name.toList, value.toList) :=
      utf8_uncut hpair (pair_uncut hname hvalue)
    have hcut : ∀ piece ∈ before ++ pairPiece (name.toList, value.toList) :: after, 59 ∉ piece := by
      simp only [List.forall_mem_append, List.forall_mem_cons] at hbeside ⊢
      exact ⟨fun piece hp => (hbeside.1 piece hp).uncut, huncut,
        fun piece hp => (hbeside.2 piece hp).uncut⟩
    have hreadable : (before ++ pairPiece (name.toList, value.toList) :: after).all
        (fun piece => piece.all plainByte) = true := by
      rw [List.all_eq_true]
      simp only [List.forall_mem_append, List.forall_mem_cons] at hbeside ⊢
      exact ⟨fun piece hp => (hbeside.1 piece hp).readable, (utf8_all_plain _).trans hpair,
        fun piece hp => (hbeside.2 piece hp).readable⟩
    have hbefore : before.findSome? (fun piece => pieceValue name.toList (latin piece)) = none := by
      rw [List.findSome?_eq_none_iff]
      exact fun piece hp => pieceValue_other hequals (hbeside piece (List.mem_append_left _ hp)).other
    have hvalues : pieceValue name.toList (name.toList ++ '=' :: value.toList) = some value := by
      have htext := (CookiePair.clean _ _ hname hvalue).pieceValue_text hequals
      simpa [CookiePair.text, CookiePair.clean] using htext
    rw [extract_pieces hcookie hcut, if_pos hreadable, List.findSome?_append, hbefore,
      List.findSome?_cons, hown, hvalues]
    rfl

end Lines

/-- Every minted token comes back: the line that sets it is a valid header, and from any
readable `Cookie` header with the pair a browser takes from that line, among cookies of other
names, exactly the token is read. -/
theorem written_cookies_read (D : Deps) (hD : SegmentsBase64 D) (svc : JwtService)
    (config : CookieConfig) (email : String) (id : Uuid) (now : ℕ) :
    (∀ token, Prog.Ran (svc.signAccessToken D email) [⟨.utcNow, now⟩] (.ok token) →
      ReadsBack (buildAccessCookie token config) token fun headers =>
        extractAccessCookie headers config) ∧
    ∀ token, Prog.Ran (svc.signRefreshToken D email) [⟨.nowV7, id⟩, ⟨.utcNow, now⟩]
        (.ok (token, id)) →
      ReadsBack (buildRefreshCookie token config) token fun headers =>
        extractRefreshCookie headers config := by
  have hnames : config.accessCookieName.toList.all plain = true ∧
      config.refreshCookieName.toList.all plain = true := by
    unfold CookieConfig.accessCookieName CookieConfig.refreshCookieName
    cases config.secure <;> decide
  constructor
  · intro token hsigned
    cases ran_signAccessToken.mp hsigned
    exact buildCookie_readsBack config.accessCookieName_token hnames.1 (clean_token hD _ _)
  · intro token hsigned
    have htoken := congrArg Prod.fst (Except.ok.inj (ran_signRefreshToken.mp hsigned))
    simp only at htoken
    subst htoken
    exact buildCookie_readsBack config.refreshCookieName_token hnames.2 (clean_token hD _ _)

theorem sample_segments : SegmentsBase64 Sample.deps where
  encoded bytes := base64Url_alphabet bytes
  signed key alg message := by
    simp only [Sample.deps, Library.documented, Sample.codecs]
    split
    · exact base64Url_alphabet _
    · simp

/-- The access cookie of an email with a quote, a semicolon and a newline in it. -/
theorem written_cookies_sample :
    ReadsBack (buildAccessCookie
        (Sample.state.jwt.accessToken Sample.deps "a\"b;c\n@example.com" Sample.moment)
        Sample.state.cookieConfig)
      (Sample.state.jwt.accessToken Sample.deps "a\"b;c\n@example.com" Sample.moment)
      fun headers => extractAccessCookie headers Sample.state.cookieConfig :=
  (written_cookies_read Sample.deps sample_segments Sample.state.jwt Sample.state.cookieConfig
    "a\"b;c\n@example.com" ⟨1⟩ Sample.moment).1 _ (ran_signAccessToken.mpr rfl)

end SvcAuth
