import Corpus.Proofs.Json.Numbers

/-!
# Steps of the reader

What the reader does with one unit of fuel, said in both directions.

* `ValueStep`, `ItemsStep` and `EntriesStep` have one constructor for each way a step can go; whatever
  a step gives is one of these.
* Where a text opens with a value (`Opens`), a step gives what the kind of value asks for. There is one
  equation for each kind.
* A value ends where the text goes on with a blank, a comma or a closing mark (`Closes`). No number goes
  on there.
-/

namespace Corpus.Json

variable {text rest blanks : Text} {limit : Option Nat} {value : Json} {depth fuel : Nat}

/-! ### The ways a step can go -/

/-- **What one step of the reader of values does**, for each depth. -/
inductive ValueStep (limit : Option Nat) (fuel : Nat) :
    (depth : Nat) → Text → Except Fault (Json × Text) → Prop
  | word {depth : Nat} {word rest : Text} {value : Json} (h : (word, value) ∈ words) :
      ValueStep limit fuel depth (word ++ rest) (.ok (value, rest))
  | string {depth : Nat} {rest : Text} :
      ValueStep limit fuel depth ('\x22' :: rest)
        ((readString rest).map fun parts => (.string parts.1, parts.2))
  | negative {depth : Nat} {rest : Text} :
      ValueStep limit fuel depth ('-' :: rest) (readNumber limit true rest)
  | positive {depth : Nat} {text : Text} :
      ValueStep limit fuel depth text (readNumber limit false text)
  | deepArray {rest : Text} : ValueStep limit fuel 0 ('[' :: rest) (.error (.tooDeep .array))
  | emptyArray {depth : Nat} {blanks rest : Text} (hblanks : IsSpaces blanks) :
      ValueStep limit fuel (depth + 1) ('[' :: (blanks ++ ']' :: rest)) (.ok (.array [], rest))
  | array {depth : Nat} {blanks rest : Text} (hblanks : IsSpaces blanks) :
      ValueStep limit fuel (depth + 1) ('[' :: (blanks ++ rest))
        ((readItems limit depth fuel rest).map fun parts => (.array parts.1, parts.2))
  | deepObject {rest : Text} : ValueStep limit fuel 0 ('\x7b' :: rest) (.error (.tooDeep .object))
  | emptyObject {depth : Nat} {blanks rest : Text} (hblanks : IsSpaces blanks) :
      ValueStep limit fuel (depth + 1) ('\x7b' :: (blanks ++ '\x7d' :: rest)) (.ok (.object [], rest))
  | object {depth : Nat} {blanks rest : Text} (hblanks : IsSpaces blanks) :
      ValueStep limit fuel (depth + 1) ('\x7b' :: (blanks ++ rest))
        ((readEntries limit depth fuel rest).map fun parts =>
          (.object (Dictionary.insertAll parts.1 []), parts.2))

theorem valueStep {result : Except Fault (Json × Text)}
    (h : readValue limit depth (fuel + 1) text = result) : ValueStep limit fuel depth text result := by
  subst h
  rw [readValue.eq_def]
  simp only
  split
  · rename_i found hfound
    obtain ⟨value, rest⟩ := found
    obtain ⟨word, hword, rfl⟩ := readWord?_eq_some_iff.mp hfound
    exact .word hword
  · split
    · exact .string
    · exact .negative
    · rename_i rest _
      cases depth with
      | zero => exact .deepArray
      | succ depth =>
        obtain ⟨blanks, hblanks, hrest⟩ := exists_skipSpace rest
        simp only
        split
        · rename_i tail htail
          rw [htail] at hrest
          subst hrest
          exact .emptyArray hblanks
        · generalize skipSpace rest = tail at hrest
          subst hrest
          exact .array hblanks
    · rename_i rest _
      cases depth with
      | zero => exact .deepObject
      | succ depth =>
        obtain ⟨blanks, hblanks, hrest⟩ := exists_skipSpace rest
        simp only
        split
        · rename_i tail htail
          rw [htail] at hrest
          subst hrest
          exact .emptyObject hblanks
        · generalize skipSpace rest = tail at hrest
          subst hrest
          exact .object hblanks
    · exact .positive

/-- **What one step of the reader of items does.** -/
inductive ItemsStep (limit : Option Nat) (depth fuel : Nat) :
    Text → Except Fault (List Json × Text) → Prop
  | fault {text : Text} {fault : Fault} (h : readValue limit depth fuel text = .error fault) :
      ItemsStep limit depth fuel text (.error fault)
  | last {text blanks rest : Text} {value : Json}
      (h : readValue limit depth fuel text = .ok (value, blanks ++ ']' :: rest))
      (hblanks : IsSpaces blanks) : ItemsStep limit depth fuel text (.ok ([value], rest))
  | next {text comma rest : Text} {value : Json}
      (h : readValue limit depth fuel text = .ok (value, comma ++ rest)) (hcomma : IsMark ',' comma) :
      ItemsStep limit depth fuel text
        ((readItems limit depth fuel rest).map fun parts => (value :: parts.1, parts.2))
  | malformed {text : Text} : ItemsStep limit depth fuel text (.error .malformed)

theorem itemsStep {result : Except Fault (List Json × Text)}
    (h : readItems limit depth (fuel + 1) text = result) : ItemsStep limit depth fuel text result := by
  subst h
  rw [readItems]
  cases hvalue : readValue limit depth fuel text with
  | error fault => exact .fault hvalue
  | ok parts =>
    obtain ⟨value, rest⟩ := parts
    simp only [bind, Except.bind]
    split
    · rename_i tail htail
      obtain ⟨blanks, hblanks, hrest⟩ := exists_skipSpace rest
      rw [htail] at hrest
      exact .last (hrest ▸ hvalue) hblanks
    · rename_i tail htail
      obtain ⟨comma, hcomma, hrest⟩ := exists_mark htail
      have hnext := ItemsStep.next (hrest ▸ hvalue) hcomma
      cases hitems : readItems limit depth fuel (skipSpace tail) <;> rwa [hitems] at hnext
    · exact .malformed

/-- **What one step of the reader of entries does.** -/
inductive EntriesStep (limit : Option Nat) (depth fuel : Nat) :
    Text → Except Fault (List (RawText × Json) × Text) → Prop
  | fault {name text : Text} {key : RawText} {fault : Fault} (hname : Name name key)
      (h : readValue limit depth fuel text = .error fault) :
      EntriesStep limit depth fuel (name ++ text) (.error fault)
  | last {name text blanks rest : Text} {key : RawText} {value : Json} (hname : Name name key)
      (h : readValue limit depth fuel text = .ok (value, blanks ++ '\x7d' :: rest))
      (hblanks : IsSpaces blanks) :
      EntriesStep limit depth fuel (name ++ text) (.ok ([(key, value)], rest))
  | next {name text comma rest : Text} {key : RawText} {value : Json} (hname : Name name key)
      (h : readValue limit depth fuel text = .ok (value, comma ++ rest)) (hcomma : IsMark ',' comma) :
      EntriesStep limit depth fuel (name ++ text)
        ((readEntries limit depth fuel rest).map fun parts => ((key, value) :: parts.1, parts.2))
  | malformed {text : Text} : EntriesStep limit depth fuel text (.error .malformed)

theorem entriesStep {result : Except Fault (List (RawText × Json) × Text)}
    (h : readEntries limit depth (fuel + 1) text = result) : EntriesStep limit depth fuel text result := by
  subst h
  rw [readEntries.eq_def]
  simp only
  split
  · rename_i text
    cases hkey : readString text with
    | error fault =>
      obtain rfl := eq_malformed_of_readString hkey
      exact .malformed
    | ok parts =>
      obtain ⟨key, afterKey⟩ := parts
      obtain ⟨literal, hliteral, htext⟩ := readString_eq_ok_iff.mp hkey
      simp only [bind, Except.bind]
      split
      · rename_i afterColon hcolon
        obtain ⟨colon, hmark, rfl⟩ := exists_mark hcolon
        rw [htext, ← List.append_assoc]
        have hname : Name (literal ++ colon) key := .colon hliteral hmark
        generalize literal ++ colon = name at hname
        generalize skipSpace afterColon = text
        cases hvalue : readValue limit depth fuel text with
        | error fault => exact .fault hname hvalue
        | ok parts =>
          obtain ⟨value, rest⟩ := parts
          simp only
          split
          · rename_i tail htail
            obtain ⟨blanks, hblanks, hrest⟩ := exists_skipSpace rest
            rw [htail] at hrest
            exact .last hname (hrest ▸ hvalue) hblanks
          · rename_i tail htail
            obtain ⟨comma, hcomma, hrest⟩ := exists_mark htail
            have hnext := EntriesStep.next hname (hrest ▸ hvalue) hcomma
            cases hentries : readEntries limit depth fuel (skipSpace tail) <;>
              rwa [hentries] at hnext
          · exact .malformed
      · exact .malformed
  · exact .malformed

/-! ### Where values begin and end -/

/-- **The text after a value**: nothing, or a blank, a comma or a closing mark. -/
def Closes (text : Text) : Prop :=
  ∀ c ∈ text.head?, isSpace c = true ∨ c = ',' ∨ c = ']' ∨ c = '\x7d'

theorem Closes.endsNumber (h : Closes rest) : EndsNumber rest := by
  have hhead {c : Char} {tail : Text} (hrest : rest = c :: tail) :
      c.isDigit = false ∧ c ≠ '.' ∧ c ≠ 'e' ∧ c ≠ 'E' := by
    have hc := h c (hrest ▸ rfl)
    simp only [isSpace, Bool.or_eq_true, decide_eq_true_eq] at hc
    rcases hc with ((((rfl | rfl) | rfl) | rfl) | rfl | rfl | rfl) <;> decide
  refine ⟨?_, ?_, ?_⟩
  · rintro c hc
    obtain ⟨tail, rfl⟩ := List.head?_eq_some_iff.mp hc
    exact (hhead rfl).1
  · rintro digits - ⟨tail, rfl⟩
    exact (hhead rfl).2.1 rfl
  · refine noExponent_of_forall fun e tail htail he => ?_
    exact absurd he (not_or.mpr (hhead htail).2.2)

theorem closes_append {c : Char} (hblanks : IsSpaces blanks) (hc : c = ',' ∨ c = ']' ∨ c = '\x7d') :
    Closes (blanks ++ c :: rest) := by
  intro d hd
  cases blanks with
  | nil => exact Option.some.inj hd ▸ .inr hc
  | cons b blanks => exact Option.some.inj hd ▸ .inl (hblanks b List.mem_cons_self)

theorem IsMark.closes {comma : Text} (h : IsMark ',' comma) : Closes (comma ++ rest) := by
  obtain ⟨before, after, hbefore, -, rfl⟩ := h
  rw [List.append_assoc]
  exact closes_append hbefore (.inl rfl)

/-- **The first character of a value** or a name: no blank and no closing mark. -/
def Opens (text : Text) : Prop :=
  ∃ c tail, text = c :: tail ∧ isSpace c = false ∧ c ≠ ']' ∧ c ≠ '\x7d'

theorem Opens.append (h : Opens text) (rest : Text) : Opens (text ++ rest) := by
  obtain ⟨c, tail, rfl, hc⟩ := h
  exact ⟨c, tail ++ rest, rfl, hc⟩

theorem Opens.skipSpace_append (h : Opens rest) (hblanks : IsSpaces blanks) :
    skipSpace (blanks ++ rest) = rest := by
  obtain ⟨c, tail, rfl, hc, -⟩ := h
  exact Json.skipSpace_append hblanks hc

theorem opens_of_isWhole {digits : Text} (h : IsWhole digits) : Opens digits := by
  obtain ⟨c, tail, rfl⟩ := List.exists_cons_of_ne_nil h.1.1
  have hne {d : Char} (hd : d.isDigit = false) : c ≠ d := by
    rintro rfl
    exact Bool.false_ne_true (hd.symm.trans (h.1.2 c List.mem_cons_self))
  exact ⟨c, tail, rfl, by simp [isSpace, hne], hne rfl, hne rfl⟩

theorem Number.exists_isWhole {negative : Bool} (h : Number limit negative text value) :
    ∃ digits tail, IsWhole digits ∧ text = digits ++ tail := by
  cases h with
  | integer hwhole => exact ⟨text, [], hwhole, (List.append_nil text).symm⟩
  | decimal hwhole => exact ⟨_, _, hwhole, rfl⟩

theorem Spells.opens (h : Spells limit depth text value) : Opens text := by
  cases h with
  | word hword =>
    simp only [words, List.mem_cons, List.not_mem_nil, or_false, Prod.mk.injEq] at hword
    rcases hword with ⟨rfl, -⟩ | ⟨rfl, -⟩ | ⟨rfl, -⟩ | ⟨rfl, -⟩ | ⟨rfl, -⟩ | ⟨rfl, -⟩ <;>
      exact ⟨_, _, rfl, by decide⟩
  | string hliteral =>
    cases hliteral
    exact ⟨_, _, rfl, by decide⟩
  | positive hnumber =>
    obtain ⟨digits, tail, hdigits, rfl⟩ := hnumber.exists_isWhole
    exact (opens_of_isWhole hdigits).append tail
  | negative => exact ⟨_, _, rfl, by decide⟩
  | emptyArray => exact ⟨_, _, rfl, by decide⟩
  | array => exact ⟨_, _, rfl, by decide⟩
  | emptyObject => exact ⟨_, _, rfl, by decide⟩
  | object => exact ⟨_, _, rfl, by decide⟩

theorem Items.opens {items : List Json} (h : Items limit depth text items) : Opens text := by
  cases h with
  | last hvalue => exact hvalue.opens.append _
  | cons hvalue => exact hvalue.opens.append _

theorem Name.opens {name : Text} {key : RawText} (h : Name name key) : Opens name := by
  obtain ⟨⟨_⟩, _⟩ := h
  exact ⟨_, _, rfl, by decide⟩

theorem Entries.opens {entries : List (RawText × Json)} (h : Entries limit depth text entries) :
    Opens text := by
  cases h with
  | last hname => exact hname.opens.append _
  | cons hname => exact hname.opens.append _

/-- A mark is passed over with its blanks. -/
theorem IsMark.skipSpace_append {mark : Char} {marked : Text} (h : IsMark mark marked)
    (hmark : isSpace mark = false) (hrest : Opens rest) :
    ∃ tail, skipSpace (marked ++ rest) = mark :: tail ∧ skipSpace tail = rest := by
  obtain ⟨before, after, hbefore, hafter, rfl⟩ := h
  refine ⟨after ++ rest, ?_, hrest.skipSpace_append hafter⟩
  rw [List.append_assoc, List.cons_append]
  exact Json.skipSpace_append hbefore hmark

theorem Opens.length_pos (h : Opens text) : 0 < text.length := by
  obtain ⟨c, tail, rfl, -⟩ := h
  exact Nat.zero_lt_succ _

theorem IsMark.length_pos {mark : Char} {marked : Text} (h : IsMark mark marked) :
    0 < marked.length := by
  obtain ⟨before, after, -, -, rfl⟩ := h
  simp only [List.length_append, List.length_cons]
  omega

/-! ### The step for each kind of value -/

theorem readValue_word {word : Text} (hword : (word, value) ∈ words) :
    readValue limit depth (fuel + 1) (word ++ rest) = .ok (value, rest) := by
  have hfound : readWord? (word ++ rest) = some (value, rest) :=
    readWord?_eq_some_iff.mpr ⟨word, hword, rfl⟩
  rw [readValue.eq_def]
  simp only [hfound]

theorem readValue_string :
    readValue limit depth (fuel + 1) ('\x22' :: rest) =
      (readString rest).map fun parts => (.string parts.1, parts.2) := rfl

theorem readValue_deepArray :
    readValue limit 0 (fuel + 1) ('[' :: rest) = .error (.tooDeep .array) := rfl

theorem readValue_deepObject :
    readValue limit 0 (fuel + 1) ('\x7b' :: rest) = .error (.tooDeep .object) := rfl

theorem readValue_emptyArray (hblanks : IsSpaces blanks) :
    readValue limit (depth + 1) (fuel + 1) ('[' :: (blanks ++ ']' :: rest)) = .ok (.array [], rest) := by
  have hrest : skipSpace (blanks ++ ']' :: rest) = ']' :: rest := skipSpace_append hblanks rfl
  have hword : readWord? ('[' :: (blanks ++ ']' :: rest)) = none := rfl
  rw [readValue.eq_def]
  simp only [hword, hrest]

theorem readValue_array (hblanks : IsSpaces blanks) (hrest : Opens rest) :
    readValue limit (depth + 1) (fuel + 1) ('[' :: (blanks ++ rest)) =
      (readItems limit depth fuel rest).map fun parts => (.array parts.1, parts.2) := by
  have hword : readWord? ('[' :: (blanks ++ rest)) = none := rfl
  rw [readValue.eq_def]
  simp only [hword, hrest.skipSpace_append hblanks]
  split
  · obtain ⟨_, _, htext, -, hclose, -⟩ := hrest
    exact absurd (List.cons.inj htext).1.symm hclose
  · rfl

theorem readValue_emptyObject (hblanks : IsSpaces blanks) :
    readValue limit (depth + 1) (fuel + 1) ('\x7b' :: (blanks ++ '\x7d' :: rest)) = .ok (.object [], rest) := by
  have hrest : skipSpace (blanks ++ '\x7d' :: rest) = '\x7d' :: rest := skipSpace_append hblanks rfl
  have hword : readWord? ('\x7b' :: (blanks ++ '\x7d' :: rest)) = none := rfl
  rw [readValue.eq_def]
  simp only [hword, hrest]

theorem readValue_object (hblanks : IsSpaces blanks) (hrest : Opens rest) :
    readValue limit (depth + 1) (fuel + 1) ('\x7b' :: (blanks ++ rest)) =
      (readEntries limit depth fuel rest).map fun parts =>
        (.object (Dictionary.insertAll parts.1 []), parts.2) := by
  have hword : readWord? ('\x7b' :: (blanks ++ rest)) = none := rfl
  rw [readValue.eq_def]
  simp only [hword, hrest.skipSpace_append hblanks]
  split
  · obtain ⟨_, _, htext, -, -, hclose⟩ := hrest
    exact absurd (List.cons.inj htext).1.symm hclose
  · rfl

/-- A text that is read as a word starts with one. -/
theorem exists_word_of_ne_none (h : readWord? text ≠ none) :
    ∃ word value rest, (word, value) ∈ words ∧ text = word ++ rest := by
  obtain ⟨found, hfound⟩ := Option.ne_none_iff_exists'.mp h
  obtain ⟨value, rest⟩ := found
  obtain ⟨word, hword, htext⟩ := readWord?_eq_some_iff.mp hfound
  exact ⟨word, value, rest, hword, htext⟩

/-- No word starts with a digit, nor with a digit after its sign. -/
theorem readWord?_eq_none {digits : Text} (h : IsWhole digits) :
    readWord? (digits ++ rest) = none ∧ readWord? ('-' :: (digits ++ rest)) = none := by
  constructor
  · by_contra hfound
    obtain ⟨word, value, tail, hword, htext⟩ := exists_word_of_ne_none hfound
    simp only [words, List.mem_cons, List.not_mem_nil, or_false, Prod.mk.injEq] at hword
    rcases hword with ⟨rfl, -⟩ | ⟨rfl, -⟩ | ⟨rfl, -⟩ | ⟨rfl, -⟩ | ⟨rfl, -⟩ | ⟨rfl, -⟩ <;>
      exact append_ne_of_isDigits h.1 rfl htext
  · by_contra hfound
    obtain ⟨word, value, tail, hword, htext⟩ := exists_word_of_ne_none hfound
    simp only [words, List.mem_cons, List.not_mem_nil, or_false, Prod.mk.injEq] at hword
    rcases hword with ⟨rfl, -⟩ | ⟨rfl, -⟩ | ⟨rfl, -⟩ | ⟨rfl, -⟩ | ⟨rfl, -⟩ | ⟨rfl, -⟩
    case inr.inr.inr.inr.inr => exact append_ne_of_isDigits h.1 rfl (List.cons.inj htext).2
    all_goals exact absurd (List.cons.inj htext).1 (by decide)

theorem readValue_negative {digits : Text} (h : IsWhole digits) :
    readValue limit depth (fuel + 1) ('-' :: (digits ++ rest)) = readNumber limit true (digits ++ rest) := by
  rw [readValue.eq_def]
  simp only [(readWord?_eq_none h).2]

theorem readValue_positive {digits : Text} (h : IsWhole digits) :
    readValue limit depth (fuel + 1) (digits ++ rest) = readNumber limit false (digits ++ rest) := by
  rw [readValue]
  · simp only [(readWord?_eq_none h).1]
  · exact fun _ => append_ne_of_isDigits h.1 rfl
  · exact fun _ => append_ne_of_isDigits h.1 rfl
  · exact fun _ => append_ne_of_isDigits h.1 rfl
  · exact fun _ => append_ne_of_isDigits h.1 rfl

theorem readItems_fault {fault : Fault} (h : readValue limit depth fuel text = .error fault) :
    readItems limit depth (fuel + 1) text = .error fault := by
  rw [readItems, h]
  rfl

theorem readItems_last (h : readValue limit depth fuel text = .ok (value, blanks ++ ']' :: rest))
    (hblanks : IsSpaces blanks) : readItems limit depth (fuel + 1) text = .ok ([value], rest) := by
  have hrest : skipSpace (blanks ++ ']' :: rest) = ']' :: rest := skipSpace_append hblanks rfl
  rw [readItems, h]
  simp only [bind, Except.bind, hrest]

theorem readItems_next {comma : Text} (h : readValue limit depth fuel text = .ok (value, comma ++ rest))
    (hcomma : IsMark ',' comma) (hrest : Opens rest) :
    readItems limit depth (fuel + 1) text =
      (readItems limit depth fuel rest).map fun parts => (value :: parts.1, parts.2) := by
  obtain ⟨tail, hmark, htail⟩ := hcomma.skipSpace_append rfl hrest
  rw [readItems, h]
  simp only [bind, Except.bind, hmark, htail]
  cases readItems limit depth fuel rest <;> rfl

/-- A literal is read after its first quotation mark. -/
theorem Literal.exists_readString {literal : Text} {found : RawText} (h : Literal literal found) (rest : Text) :
    ∃ text, literal ++ rest = '\x22' :: text ∧ readString text = .ok (found, rest) := by
  obtain ⟨hbody⟩ := h
  exact ⟨_, rfl, readString_eq_ok_iff.mpr ⟨_, .quoted hbody, rfl⟩⟩

/-- A name is read up to the text of its value. -/
theorem Name.exists_readString {name : Text} {key : RawText} (h : Name name key) (htext : Opens text) :
    ∃ afterQuote afterKey tail, name ++ text = '\x22' :: afterQuote ∧
      readString afterQuote = .ok (key, afterKey) ∧ skipSpace afterKey = ':' :: tail ∧
      skipSpace tail = text := by
  obtain ⟨hliteral, hcolon⟩ := h
  obtain ⟨tail, hmark, htail⟩ := hcolon.skipSpace_append rfl htext
  obtain ⟨afterQuote, hquote, hstring⟩ := hliteral.exists_readString (_ ++ text)
  exact ⟨afterQuote, _, tail, by rw [List.append_assoc, hquote], hstring, hmark, htail⟩

theorem readEntries_fault {name : Text} {key : RawText} {fault : Fault} (hname : Name name key)
    (htext : Opens text) (h : readValue limit depth fuel text = .error fault) :
    readEntries limit depth (fuel + 1) (name ++ text) = .error fault := by
  obtain ⟨afterQuote, afterKey, tail, hquote, hstring, hmark, htail⟩ := hname.exists_readString htext
  rw [hquote, readEntries, hstring]
  simp only [bind, Except.bind, hmark, htail, h]

theorem readEntries_last {name : Text} {key : RawText} (hname : Name name key) (htext : Opens text)
    (h : readValue limit depth fuel text = .ok (value, blanks ++ '\x7d' :: rest))
    (hblanks : IsSpaces blanks) :
    readEntries limit depth (fuel + 1) (name ++ text) = .ok ([(key, value)], rest) := by
  have hrest : skipSpace (blanks ++ '\x7d' :: rest) = '\x7d' :: rest := skipSpace_append hblanks rfl
  obtain ⟨afterQuote, afterKey, tail, hquote, hstring, hmark, htail⟩ := hname.exists_readString htext
  rw [hquote, readEntries, hstring]
  simp only [bind, Except.bind, hmark, htail, h, hrest]

theorem readEntries_next {name comma : Text} {key : RawText} (hname : Name name key) (htext : Opens text)
    (h : readValue limit depth fuel text = .ok (value, comma ++ rest)) (hcomma : IsMark ',' comma)
    (hrest : Opens rest) :
    readEntries limit depth (fuel + 1) (name ++ text) =
      (readEntries limit depth fuel rest).map fun parts => ((key, value) :: parts.1, parts.2) := by
  obtain ⟨afterComma, hcommaMark, hafter⟩ := hcomma.skipSpace_append rfl hrest
  obtain ⟨afterQuote, afterKey, tail, hquote, hstring, hmark, htail⟩ := hname.exists_readString htext
  rw [hquote, readEntries, hstring]
  simp only [bind, Except.bind, hmark, htail, h, hcommaMark, hafter]
  cases readEntries limit depth fuel rest <;> rfl

end Corpus.Json
