import SvcAuth.TextFormats

/-! JSON texts of objects in objects, down to a given depth: what is written reads back,
with any white space behind it. -/
namespace SvcAuth.TextFormats

/-- Strings, integers of 64 bits and booleans, in objects down to this depth. -/
def Within : ℕ → Json → Prop
  | d + 1, .obj ms => ∀ m ∈ ms, Within d m.2
  | _, .bool _ => True
  | _, v => v.Scalar

section Writing

def plainValue : Json → List Char
  | .bool true => "true".toList
  | .bool false => "false".toList
  | v => jsonValue v

/-- The members of an object after its opening brace. -/
def nestedMembers (write : Json → List Char) : List (String × Json) → List Char
  | [] => ['}']
  | [m] => quoted m.1 ++ ':' :: (write m.2 ++ ['}'])
  | m :: ms => quoted m.1 ++ ':' :: (write m.2 ++ ',' :: nestedMembers write ms)

def nestedValue : ℕ → Json → List Char
  | d + 1, .obj ms => '{' :: nestedMembers (nestedValue d) ms
  | _, v => plainValue v

end Writing

section Reading

def readPlain : List Char → Option (Json × List Char)
  | 't' :: 'r' :: 'u' :: 'e' :: cs => some (.bool true, cs)
  | 'f' :: 'a' :: 'l' :: 's' :: 'e' :: cs => some (.bool false, cs)
  | cs => readValue cs

/-- At most `fuel` members and the closing brace, and what follows them. -/
def readNestedMembers (read : List Char → Option (Json × List Char)) :
    ℕ → List Char → Option (List (String × Json) × List Char)
  | fuel + 1, '"' :: cs => do
    let (name, cs) ← readQuoted cs
    match cs with
    | ':' :: cs => do
      let (v, cs) ← read cs
      match cs with
      | '}' :: cs => some ([(.ofList name, v)], cs)
      | ',' :: cs => do
        let (ms, cs) ← readNestedMembers read fuel cs
        some ((.ofList name, v) :: ms, cs)
      | _ => none
    | _ => none
  | _, _ => none

def readNested : ℕ → List Char → Option (Json × List Char)
  | _ + 1, '{' :: '}' :: cs => some (.obj [], cs)
  | d + 1, '{' :: cs => do
    let (ms, cs) ← readNestedMembers (readNested d) cs.length cs
    some (.obj ms, cs)
  | _, cs => readPlain cs

/-- A whole text, down to this depth: one value, and white space behind it. -/
def readText (d : ℕ) (cs : List Char) : Option Json := do
  let (v, rest) ← readNested d (cs ++ ['\n'])
  if rest.all Char.isWhitespace then some v else none

end Reading

section RoundTrip
variable {d : ℕ} {v : Json} {rest : List Char}

theorem jsonValue_begin (hv : v.Scalar) :
    ∃ c cs, jsonValue v = c :: cs ∧ c ≠ 't' ∧ c ≠ 'f' ∧ c ≠ '{' := by
  have hdigits : ∀ c : Char, c.isDigit = true → c ≠ 't' ∧ c ≠ 'f' ∧ c ≠ '{' := by
    intro c hc
    refine ⟨?_, ?_, ?_⟩ <;> rintro rfl <;> simp at hc
  cases v with
  | str s => exact ⟨'"', _, rfl, by simp⟩
  | int i =>
    cases i with
    | ofNat n =>
      obtain ⟨c, cs, hne⟩ := List.exists_cons_of_ne_nil (decimal_ne_nil n)
      exact ⟨c, cs, hne, hdigits c (decimal_isDigit n c (hne ▸ .head _))⟩
    | negSucc n => exact ⟨'-', _, rfl, by simp⟩
  | _ => cases hv

theorem readPlain_plainValue (hv : Within 0 v) (h : Ends rest) :
    readPlain (plainValue v ++ rest) = some (v, rest) := by
  have hscalar : v.Scalar → plainValue v = jsonValue v →
      readPlain (plainValue v ++ rest) = some (v, rest) := by
    intro hs hplain
    obtain ⟨c, cs, hbegin, ht, hf, -⟩ := jsonValue_begin hs
    rw [hplain, ← readValue_jsonValue hs h, hbegin, List.cons_append]
    unfold readPlain
    split
    · rename_i heq
      exact absurd (List.cons.inj heq).1 ht
    · rename_i heq
      exact absurd (List.cons.inj heq).1 hf
    · rfl
  cases v with
  | bool b => cases b <;> rfl
  | str s => exact hscalar hv rfl
  | int i => exact hscalar hv rfl
  | _ => cases hv

theorem nestedMembers_length (write : Json → List Char) (ms : List (String × Json)) :
    ms.length < (nestedMembers write ms).length := by
  induction ms with
  | nil => simp [nestedMembers]
  | cons m ms ih =>
    cases ms with
    | nil =>
      simp [nestedMembers]
      omega
    | cons m' ms =>
      simp only [nestedMembers, List.length_append, List.length_cons] at ih ⊢
      omega

theorem readNestedMembers_written {read : List Char → Option (Json × List Char)}
    {write : Json → List Char} {ms : List (String × Json)} (hne : ms ≠ [])
    (hread : ∀ m ∈ ms, ∀ rest, Ends rest → read (write m.2 ++ rest) = some (m.2, rest)) {fuel : ℕ}
    (hfuel : ms.length ≤ fuel) :
    readNestedMembers read fuel (nestedMembers write ms ++ rest) = some (ms, rest) := by
  induction ms generalizing fuel with
  | nil => exact absurd rfl hne
  | cons m ms ih =>
    obtain ⟨fuel, rfl⟩ : ∃ n, fuel = n + 1 := ⟨fuel - 1, by simp at hfuel; omega⟩
    cases ms with
    | nil =>
      have hvalue := hread m (.head _) ('}' :: rest) ⟨_, _, rfl, rfl⟩
      simp [nestedMembers, quoted, readNestedMembers, readQuoted_flatMap, hvalue]
    | cons m' ms =>
      have hvalue := hread m (.head _) (',' :: (nestedMembers write (m' :: ms) ++ rest))
        ⟨_, _, rfl, rfl⟩
      have hrest : readNestedMembers read fuel (nestedMembers write (m' :: ms) ++ rest) =
          some (m' :: ms, rest) :=
        ih (by simp) (fun m hm => hread m (.tail _ hm)) (by simpa using hfuel)
      simp [nestedMembers, quoted, readNestedMembers, readQuoted_flatMap, hvalue, hrest]

theorem readNested_plain (hv : Within 0 v) (h : Ends rest) :
    readNested d (plainValue v ++ rest) = some (v, rest) := by
  have hbegin : ∃ c cs, plainValue v = c :: cs ∧ c ≠ '{' := by
    cases v with
    | bool b => cases b <;> exact ⟨_, _, rfl, by decide⟩
    | str s =>
      obtain ⟨c, cs, hcs, -, -, hbrace⟩ := jsonValue_begin (v := .str s) hv
      exact ⟨c, cs, hcs, hbrace⟩
    | int i =>
      obtain ⟨c, cs, hcs, -, -, hbrace⟩ := jsonValue_begin (v := .int i) hv
      exact ⟨c, cs, hcs, hbrace⟩
    | _ => cases hv
  obtain ⟨c, cs, hcs, hbrace⟩ := hbegin
  rw [← readPlain_plainValue hv h, hcs, List.cons_append]
  unfold readNested
  split
  · rename_i heq
    exact absurd (List.cons.inj heq).1 hbrace
  · rename_i heq
    exact absurd (List.cons.inj heq).1 hbrace
  · rfl

theorem readNested_nestedValue (hv : Within d v) (h : Ends rest) :
    readNested d (nestedValue d v ++ rest) = some (v, rest) := by
  induction d generalizing v rest with
  | zero =>
    cases v with
    | obj ms => cases hv
    | _ => exact readNested_plain hv h
  | succ d ih =>
    cases v with
    | obj ms =>
      cases ms with
      | nil => rfl
      | cons m ms =>
        have hmembers : readNestedMembers (readNested d)
            (nestedMembers (nestedValue d) (m :: ms) ++ rest).length
            (nestedMembers (nestedValue d) (m :: ms) ++ rest) = some (m :: ms, rest) := by
          have hlength := nestedMembers_length (nestedValue d) (m :: ms)
          apply readNestedMembers_written (by simp) fun m hm rest hrest => ih (hv m hm) hrest
          rw [List.length_append]
          omega
        have hbegin : ∃ cs, nestedMembers (nestedValue d) (m :: ms) ++ rest = '"' :: cs := by
          cases ms <;> exact ⟨_, rfl⟩
        obtain ⟨cs, hcs⟩ := hbegin
        rw [nestedValue, List.cons_append]
        rw [hcs] at hmembers ⊢
        simp only [List.length_cons] at hmembers
        simp [readNested, hmembers]
    | _ => exact readNested_plain hv h

theorem readText_nestedValue (hv : Within d v) {ws : List Char}
    (hws : ∀ c ∈ ws, c.isWhitespace = true) : readText d (nestedValue d v ++ ws) = some v := by
  have hends : Ends (ws ++ ['\n']) := by
    cases ws with
    | nil => exact ⟨_, _, rfl, rfl⟩
    | cons c ws =>
      refine ⟨c, ws ++ ['\n'], rfl, ?_⟩
      have hc := hws c (.head _)
      simp only [Char.isWhitespace, Bool.or_eq_true, decide_eq_true_eq] at hc
      rcases hc with ((rfl | rfl) | rfl) | rfl <;> rfl
  have hall : (ws ++ ['\n']).all Char.isWhitespace = true := by
    simp only [List.all_eq_true, List.mem_append, List.mem_singleton]
    rintro c (hc | rfl)
    · exact hws c hc
    · rfl
  rw [readText, List.append_assoc, readNested_nestedValue hv hends]
  simp only [Option.bind_eq_bind, Option.bind_some, hall, if_true]

end RoundTrip

end SvcAuth.TextFormats
