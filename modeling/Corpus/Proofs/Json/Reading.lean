import Corpus.Proofs.Dictionary.History
import Corpus.Proofs.Json.Steps

/-!
# Reading documents

The reader accepts exactly the documents of the grammar, with their values (`read_eq_ok_iff`).

* What is read is spelled by the text that was taken (`ReadsSpelled`).
* What is spelled is read, with fuel for twice its length (`ReadsWhole`).

Both are an induction on the fuel over the three readers at once, for all depths.
-/

namespace Corpus.Json

variable {text rest : Text} {limit : Option Nat} {value : Json} {depth fuel : Nat}

/-! ### What is read is a value -/

/-- A part of a reader's result is the result. -/
theorem ok_of_map {α β : Type} (f : α → β) {found : Except Fault (α × Text)} {b : β}
    (h : (found.map fun parts => (f parts.1, parts.2)) = .ok (b, rest)) :
    ∃ a, found = .ok (a, rest) ∧ f a = b := by
  obtain ⟨⟨a, tail⟩, hfound, hparts⟩ := map_eq_ok_iff.mp h
  cases hparts
  exact ⟨a, hfound, rfl⟩

/-- **What is read** with this much fuel is spelled by the text that was taken. -/
structure ReadsSpelled (limit : Option Nat) (fuel : Nat) : Prop where
  value {depth : Nat} {text rest : Text} {value : Json} (h : readValue limit depth fuel text = .ok (value, rest)) :
    ∃ body, text = body ++ rest ∧ Spells limit depth body value
  items {depth : Nat} {text rest : Text} {items : List Json}
    (h : readItems limit depth fuel text = .ok (items, rest)) :
    ∃ body, text = body ++ ']' :: rest ∧ Items limit depth body items
  entries {depth : Nat} {text rest : Text} {entries : List (RawText × Json)}
    (h : readEntries limit depth fuel text = .ok (entries, rest)) :
    ∃ body, text = body ++ '\x7d' :: rest ∧ Entries limit depth body entries

theorem ReadsSpelled.value_step (ih : ReadsSpelled limit fuel)
    (h : readValue limit depth (fuel + 1) text = .ok (value, rest)) :
    ∃ body, text = body ++ rest ∧ Spells limit depth body value := by
  generalize hresult : Except.ok (value, rest) = result at h
  cases valueStep h with
  | word hword =>
    cases hresult
    exact ⟨_, rfl, .word hword⟩
  | string =>
    obtain ⟨found, hfound, rfl⟩ := ok_of_map _ hresult.symm
    obtain ⟨literal, hliteral, htext⟩ := readString_eq_ok_iff.mp hfound
    exact ⟨literal, htext, .string hliteral⟩
  | negative =>
    obtain ⟨body, rfl, hbody⟩ := exists_number hresult.symm
    exact ⟨_, rfl, .negative hbody⟩
  | positive =>
    obtain ⟨body, rfl, hbody⟩ := exists_number hresult.symm
    exact ⟨_, rfl, .positive hbody⟩
  | deepArray => cases hresult
  | emptyArray hblanks =>
    cases hresult
    exact ⟨_, by simp, .emptyArray hblanks⟩
  | array hblanks =>
    obtain ⟨items, hitems, rfl⟩ := ok_of_map _ hresult.symm
    obtain ⟨body, rfl, hbody⟩ := ih.items hitems
    exact ⟨_, by simp, .array hblanks hbody⟩
  | deepObject => cases hresult
  | emptyObject hblanks =>
    cases hresult
    exact ⟨_, by simp, .emptyObject hblanks⟩
  | object hblanks =>
    obtain ⟨entries, hentries, rfl⟩ :=
      ok_of_map (fun entries => object (Dictionary.insertAll entries [])) hresult.symm
    obtain ⟨body, rfl, hbody⟩ := ih.entries hentries
    exact ⟨_, by simp, .object hblanks hbody⟩

theorem ReadsSpelled.items_step {items : List Json} (ih : ReadsSpelled limit fuel)
    (h : readItems limit depth (fuel + 1) text = .ok (items, rest)) :
    ∃ body, text = body ++ ']' :: rest ∧ Items limit depth body items := by
  generalize hresult : Except.ok (items, rest) = result at h
  cases itemsStep h with
  | fault => cases hresult
  | last hvalue hblanks =>
    cases hresult
    obtain ⟨body, rfl, hbody⟩ := ih.value hvalue
    exact ⟨_, by simp, .last hbody hblanks⟩
  | next hvalue hcomma =>
    obtain ⟨more, hmore, rfl⟩ := ok_of_map _ hresult.symm
    obtain ⟨tail, rfl, htail⟩ := ih.items hmore
    obtain ⟨body, rfl, hbody⟩ := ih.value hvalue
    exact ⟨_, by simp, .cons hbody hcomma htail⟩
  | malformed => cases hresult

theorem ReadsSpelled.entries_step {entries : List (RawText × Json)} (ih : ReadsSpelled limit fuel)
    (h : readEntries limit depth (fuel + 1) text = .ok (entries, rest)) :
    ∃ body, text = body ++ '\x7d' :: rest ∧ Entries limit depth body entries := by
  generalize hresult : Except.ok (entries, rest) = result at h
  cases entriesStep h with
  | fault => cases hresult
  | last hname hvalue hblanks =>
    cases hresult
    obtain ⟨body, rfl, hbody⟩ := ih.value hvalue
    exact ⟨_, by simp, .last hname hbody hblanks⟩
  | next hname hvalue hcomma =>
    obtain ⟨more, hmore, rfl⟩ := ok_of_map _ hresult.symm
    obtain ⟨tail, rfl, htail⟩ := ih.entries hmore
    obtain ⟨body, rfl, hbody⟩ := ih.value hvalue
    exact ⟨_, by simp, .cons hname hbody hcomma htail⟩
  | malformed => cases hresult

theorem readsSpelled (limit : Option Nat) (fuel : Nat) : ReadsSpelled limit fuel := by
  induction fuel with
  | zero => exact ⟨nofun, nofun, nofun⟩
  | succ fuel ih => exact ⟨ih.value_step, ih.items_step, ih.entries_step⟩

/-! ### Values are read -/

/-- **What is spelled** is read with this much fuel. -/
structure ReadsWhole (limit : Option Nat) (fuel : Nat) : Prop where
  value {depth : Nat} {text rest : Text} {value : Json} (h : Spells limit depth text value)
    (hfuel : 2 * text.length ≤ fuel) (hrest : Closes rest) :
    readValue limit depth fuel (text ++ rest) = .ok (value, rest)
  items {depth : Nat} {text rest : Text} {items : List Json} (h : Items limit depth text items)
    (hfuel : 2 * text.length + 1 ≤ fuel) :
    readItems limit depth fuel (text ++ ']' :: rest) = .ok (items, rest)
  entries {depth : Nat} {text rest : Text} {entries : List (RawText × Json)} (h : Entries limit depth text entries)
    (hfuel : 2 * text.length + 1 ≤ fuel) :
    readEntries limit depth fuel (text ++ '\x7d' :: rest) = .ok (entries, rest)

theorem ReadsWhole.value_step (ih : ReadsWhole limit fuel) (h : Spells limit depth text value)
    (hfuel : 2 * text.length ≤ fuel + 1) (hrest : Closes rest) :
    readValue limit depth (fuel + 1) (text ++ rest) = .ok (value, rest) := by
  cases h with
  | word hword => exact readValue_word hword
  | string hliteral =>
    obtain ⟨afterQuote, hquote, hstring⟩ := hliteral.exists_readString rest
    rw [hquote, readValue_string, hstring]
    rfl
  | positive hnumber =>
    rw [← readNumber_append_number hnumber hrest.endsNumber]
    obtain ⟨digits, tail, hdigits, rfl⟩ := hnumber.exists_isWhole
    rw [List.append_assoc]
    exact readValue_positive hdigits
  | negative hnumber =>
    rw [← readNumber_append_number hnumber hrest.endsNumber]
    obtain ⟨digits, tail, hdigits, rfl⟩ := hnumber.exists_isWhole
    rw [List.cons_append, List.append_assoc]
    exact readValue_negative hdigits
  | emptyArray hblanks =>
    rw [List.cons_append, List.append_assoc]
    exact readValue_emptyArray hblanks
  | array hblanks hitems =>
    simp only [List.length_cons, List.length_append] at hfuel
    simp only [List.cons_append, List.append_assoc]
    rw [readValue_array hblanks (hitems.opens.append _), List.nil_append,
      ih.items hitems (by omega)]
    rfl
  | emptyObject hblanks =>
    rw [List.cons_append, List.append_assoc]
    exact readValue_emptyObject hblanks
  | object hblanks hentries =>
    simp only [List.length_cons, List.length_append] at hfuel
    simp only [List.cons_append, List.append_assoc]
    rw [readValue_object hblanks (hentries.opens.append _), List.nil_append,
      ih.entries hentries (by omega)]
    rfl

theorem ReadsWhole.items_step {items : List Json} (ih : ReadsWhole limit fuel)
    (h : Items limit depth text items) (hfuel : 2 * text.length + 1 ≤ fuel + 1) :
    readItems limit depth (fuel + 1) (text ++ ']' :: rest) = .ok (items, rest) := by
  cases h with
  | last hvalue hblanks =>
    rw [List.length_append] at hfuel
    rw [List.append_assoc]
    exact readItems_last
      (ih.value hvalue (by omega) (closes_append hblanks (.inr (.inl rfl)))) hblanks
  | cons hvalue hcomma htail =>
    have hpos := hvalue.opens.length_pos
    have hmark := hcomma.length_pos
    simp only [List.length_append] at hfuel
    rw [List.append_assoc, List.append_assoc, readItems_next
      (ih.value hvalue (by omega) hcomma.closes) hcomma (htail.opens.append _),
      ih.items htail (by omega)]
    rfl

theorem ReadsWhole.entries_step {entries : List (RawText × Json)} (ih : ReadsWhole limit fuel)
    (h : Entries limit depth text entries) (hfuel : 2 * text.length + 1 ≤ fuel + 1) :
    readEntries limit depth (fuel + 1) (text ++ '\x7d' :: rest) = .ok (entries, rest) := by
  cases h with
  | last hname hvalue hblanks =>
    simp only [List.length_append] at hfuel
    rw [List.append_assoc, List.append_assoc]
    exact readEntries_last hname (hvalue.opens.append _)
      (ih.value hvalue (by omega) (closes_append hblanks (.inr (.inr rfl)))) hblanks
  | cons hname hvalue hcomma htail =>
    have hpos := hvalue.opens.length_pos
    have hmark := hcomma.length_pos
    simp only [List.length_append] at hfuel
    rw [List.append_assoc, List.append_assoc, List.append_assoc,
      readEntries_next hname (hvalue.opens.append _)
        (ih.value hvalue (by omega) hcomma.closes) hcomma (htail.opens.append _),
      ih.entries htail (by omega)]
    rfl

theorem readsWhole (limit : Option Nat) (fuel : Nat) : ReadsWhole limit fuel := by
  induction fuel with
  | zero =>
    refine ⟨fun h hfuel => ?_, fun _ => nofun, fun _ => nofun⟩
    have hpos := h.opens.length_pos
    omega
  | succ fuel ih => exact ⟨ih.value_step, ih.items_step, ih.entries_step⟩

/-! ### Documents -/

/-- **The reader accepts exactly the documents**, with their values. -/
theorem read_eq_ok_iff : read limit depth text = .ok value ↔ Document limit depth text value := by
  constructor
  · intro h
    cases hvalue : readValue limit depth (2 * text.length + 2) (skipSpace text) with
    | error fault =>
      rw [read, hvalue] at h
      cases h
    | ok parts =>
      obtain ⟨found, after⟩ := parts
      rw [read, hvalue] at h
      simp only [bind, Except.bind] at h
      split at h
      · rename_i hafter
        obtain rfl := Except.ok.inj h
        obtain ⟨before, hbefore, htext⟩ := exists_skipSpace text
        obtain ⟨body, hbody, hspells⟩ := (readsSpelled limit _).value hvalue
        exact ⟨before, body, after, hbefore, hspells,
          skipSpace_eq_nil_iff.mp (List.isEmpty_iff.mp hafter), hbody ▸ htext⟩
      · cases h
  · rintro ⟨before, body, after, hbefore, hbody, hafter, rfl⟩
    have hcloses : Closes after := fun c hc => .inl (hafter c (List.mem_of_mem_head? hc))
    have hvalue := (readsWhole limit (2 * (before ++ (body ++ after)).length + 2)).value hbody
      (by simp only [List.length_append]; omega) hcloses
    rw [read, (hbody.opens.append after).skipSpace_append hbefore, hvalue]
    simp [bind, Except.bind, skipSpace_eq_nil_iff.mpr hafter]

/-- **No text is a document of two values.** -/
theorem Document.unique {other : Json} (h : Document limit depth text value)
    (hother : Document limit depth text other) : value = other :=
  Except.ok.inj ((read_eq_ok_iff.mpr h).symm.trans (read_eq_ok_iff.mpr hother))

/-- An object holds every key once. -/
theorem nodup_keys_of_read {entries : List (RawText × Json)}
    (h : read limit depth text = .ok (.object entries)) : (Dictionary.keys entries).Nodup := by
  obtain ⟨before, body, after, -, hbody, -, -⟩ := read_eq_ok_iff.mp h
  cases hbody with
  | word hword => simp [words] at hword
  | positive hnumber => cases hnumber
  | negative hnumber => cases hnumber
  | emptyObject => exact List.nodup_nil
  | object => exact Dictionary.nodup_keys_insertAll _

end Corpus.Json
