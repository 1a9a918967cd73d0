import Corpus.Proofs.Json.Reading

/-!
# Documents that exceed a limit

The reader refuses a text for another reason than its form exactly when the document has an integer of
too many digits or is nested too deeply (`read_eq_error_iff`).

* The reader was at the end of a beginning when it gave up (`GivesUp`): it knows what it has passed, and
  at a new bracket or brace the beginning is longer and one level less is left.
* From the end of a beginning a refusal goes all the way out (`Beginning.read_refused`): what has passed
  is read again, whatever comes after it.
-/

namespace Corpus.Json

variable {text rest front blanks before : Text} {limit : Option Nat} {value : Json}
  {depth whole fuel n : Nat} {fault : Fault}

/-! ### Where the reader gives up -/

/-- **The reader gives up** with this much fuel, and not for the form of the text, only where the document
exceeds a limit. -/
structure GivesUp (n whole fuel : Nat) : Prop where
  value {depth : Nat} {front text : Text} {fault : Fault} (hfault : fault ≠ .malformed)
    (hfront : Beginning (some n) whole depth front)
    (h : readValue (some n) depth fuel text = .error fault) : Exceeds n whole (front ++ text) fault
  items {depth : Nat} {front blanks before text : Text} {fault : Fault} (hfault : fault ≠ .malformed)
    (hfront : Beginning (some n) whole (depth + 1) front) (hblanks : IsSpaces blanks)
    (hbefore : ItemsBefore (some n) depth before)
    (h : readItems (some n) depth fuel text = .error fault) :
    Exceeds n whole (front ++ '[' :: (blanks ++ (before ++ text))) fault
  entries {depth : Nat} {front blanks before text : Text} {fault : Fault}
    (hfault : fault ≠ .malformed) (hfront : Beginning (some n) whole (depth + 1) front)
    (hblanks : IsSpaces blanks) (hbefore : EntriesBefore (some n) depth before)
    (h : readEntries (some n) depth fuel text = .error fault) :
    Exceeds n whole (front ++ '\x7b' :: (blanks ++ (before ++ text))) fault

theorem GivesUp.value_step (hn : 0 < n) (ih : GivesUp n whole fuel) (hfault : fault ≠ .malformed)
    (hfront : Beginning (some n) whole depth front)
    (h : readValue (some n) depth (fuel + 1) text = .error fault) :
    Exceeds n whole (front ++ text) fault := by
  generalize hresult : Except.error fault = result at h
  cases valueStep h with
  | word => cases hresult
  | string => exact absurd (eq_malformed_of_readString (map_eq_error_iff.mp hresult.symm)) hfault
  | negative =>
    obtain ⟨digits, rest, rfl, hdigits, hlong, hrest, rfl⟩ := exists_long hn hfault hresult.symm
    exact .integer hfront (.inr rfl) hdigits hlong hrest
  | positive =>
    obtain ⟨digits, rest, rfl, hdigits, hlong, hrest, rfl⟩ := exists_long hn hfault hresult.symm
    exact .integer hfront (.inl rfl) hdigits hlong hrest
  | deepArray =>
    cases hresult
    exact .array hfront
  | emptyArray => cases hresult
  | array hblanks => exact ih.items hfault hfront hblanks .none (map_eq_error_iff.mp hresult.symm)
  | deepObject =>
    cases hresult
    exact .object hfront
  | emptyObject => cases hresult
  | object hblanks => exact ih.entries hfault hfront hblanks .none (map_eq_error_iff.mp hresult.symm)

theorem GivesUp.items_step (ih : GivesUp n whole fuel) (hfault : fault ≠ .malformed)
    (hfront : Beginning (some n) whole (depth + 1) front) (hblanks : IsSpaces blanks)
    (hbefore : ItemsBefore (some n) depth before)
    (h : readItems (some n) depth (fuel + 1) text = .error fault) :
    Exceeds n whole (front ++ '[' :: (blanks ++ (before ++ text))) fault := by
  generalize hresult : Except.error fault = result at h
  cases itemsStep h with
  | fault hvalue =>
    cases hresult
    simpa using ih.value hfault (.item hfront hblanks hbefore) hvalue
  | last => cases hresult
  | next hvalue hcomma =>
    -- The item that was read is spelled in the text, so that the beginning grows by it.
    obtain ⟨body, rfl, hbody⟩ := (readsSpelled (some n) fuel).value hvalue
    simpa using ih.items hfault hfront hblanks (.next hbefore hbody hcomma)
      (map_eq_error_iff.mp hresult.symm)
  | malformed => exact absurd (Except.error.inj hresult) hfault

theorem GivesUp.entries_step (ih : GivesUp n whole fuel) (hfault : fault ≠ .malformed)
    (hfront : Beginning (some n) whole (depth + 1) front) (hblanks : IsSpaces blanks)
    (hbefore : EntriesBefore (some n) depth before)
    (h : readEntries (some n) depth (fuel + 1) text = .error fault) :
    Exceeds n whole (front ++ '\x7b' :: (blanks ++ (before ++ text))) fault := by
  generalize hresult : Except.error fault = result at h
  cases entriesStep h with
  | fault hname hvalue =>
    cases hresult
    simpa using ih.value hfault (.entry hfront hblanks hbefore hname) hvalue
  | last => cases hresult
  | next hname hvalue hcomma =>
    obtain ⟨body, rfl, hbody⟩ := (readsSpelled (some n) fuel).value hvalue
    simpa using ih.entries hfault hfront hblanks (.next hbefore hname hbody hcomma)
      (map_eq_error_iff.mp hresult.symm)
  | malformed => exact absurd (Except.error.inj hresult) hfault

/-- Without fuel the reader gives up for the form. -/
theorem givesUp (hn : 0 < n) (whole fuel : Nat) : GivesUp n whole fuel := by
  induction fuel with
  | zero =>
    exact ⟨fun hfault _ h => absurd (Except.error.inj h).symm hfault,
      fun hfault _ _ _ h => absurd (Except.error.inj h).symm hfault,
      fun hfault _ _ _ h => absurd (Except.error.inj h).symm hfault⟩
  | succ fuel ih => exact ⟨ih.value_step hn, ih.items_step, ih.entries_step⟩

/-! ### A refusal goes out -/

/-- **A text is refused** with any fuel that is enough for its length. -/
def Refused {α : Type} (reader : Nat → Text → Except Fault (α × Text)) (extra : Nat) (text : Text)
    (fault : Fault) : Prop :=
  ∀ fuel, 2 * text.length + extra ≤ fuel → reader fuel text = .error fault

theorem ItemsBefore.opens (h : ItemsBefore limit depth before) (hopens : Opens text) :
    Opens (before ++ text) := by
  induction h generalizing text with
  | none => exact hopens
  | next _ hvalue _ ih =>
    rw [List.append_assoc, List.append_assoc]
    exact ih (hvalue.opens.append _)

theorem EntriesBefore.opens (h : EntriesBefore limit depth before) (hopens : Opens text) :
    Opens (before ++ text) := by
  induction h generalizing text with
  | none => exact hopens
  | next _ hname _ _ ih =>
    rw [List.append_assoc, List.append_assoc]
    exact ih (hname.opens.append _)

/-- A refused text has a first step, and what comes after it has fuel enough. -/
theorem refused_of_step {α : Type} {reader : Nat → Text → Except Fault (α × Text)}
    (h : ∀ fuel, 2 * text.length ≤ fuel → reader (fuel + 1) text = .error fault) :
    Refused reader 1 text fault := by
  intro fuel hfuel
  cases fuel with
  | zero => exact absurd hfuel (Nat.not_succ_le_zero _)
  | succ fuel => exact h fuel (Nat.le_of_succ_le_succ hfuel)

/-- Items that have passed change no refusal. -/
theorem ItemsBefore.refused (h : ItemsBefore limit depth before) (hopens : Opens text)
    (hrefused : Refused (readItems limit depth) 1 text fault) :
    Refused (readItems limit depth) 1 (before ++ text) fault := by
  induction h generalizing text with
  | none => exact hrefused
  | next _ hvalue hcomma ih =>
    rw [List.append_assoc, List.append_assoc]
    refine ih (hvalue.opens.append _) (refused_of_step fun fuel hfuel => ?_)
    have hpos := hvalue.opens.length_pos
    simp only [List.length_append] at hfuel
    rw [readItems_next ((readsWhole limit fuel).value hvalue (by omega) hcomma.closes) hcomma hopens,
      hrefused fuel (by omega)]
    rfl

/-- Entries that have passed change no refusal. -/
theorem EntriesBefore.refused (h : EntriesBefore limit depth before) (hopens : Opens text)
    (hrefused : Refused (readEntries limit depth) 1 text fault) :
    Refused (readEntries limit depth) 1 (before ++ text) fault := by
  induction h generalizing text with
  | none => exact hrefused
  | next _ hname hvalue hcomma ih =>
    rw [List.append_assoc, List.append_assoc, List.append_assoc]
    refine ih (hname.opens.append _) (refused_of_step fun fuel hfuel => ?_)
    have hpos := hvalue.opens.length_pos
    simp only [List.length_append] at hfuel
    rw [readEntries_next hname (hvalue.opens.append _)
      ((readsWhole limit fuel).value hvalue (by omega) hcomma.closes) hcomma hopens,
      hrefused fuel (by omega)]
    rfl

/-- **A refusal where a value is due** refuses the document. -/
theorem Beginning.read_refused (h : Beginning limit whole depth front) (hopens : Opens text)
    (hrefused : Refused (readValue limit depth) 0 text fault) :
    read limit whole (front ++ text) = .error fault := by
  induction h generalizing text with
  | start hblanks =>
    rw [read, hopens.skipSpace_append hblanks,
      hrefused _ (by simp only [List.length_append]; omega)]
    rfl
  | @item depth _ _ _ _ hblanks hitems ih =>
    -- The value is an item of the array that the shorter beginning leads to.
    rw [List.append_assoc, List.cons_append, List.append_assoc]
    refine ih ⟨_, _, rfl, by decide⟩ fun fuel hfuel => ?_
    simp only [List.length_cons, List.length_append] at hfuel
    have hitem : Refused (readItems limit depth) 1 text fault :=
      refused_of_step fun fuel hfuel => readItems_fault (hrefused fuel hfuel)
    cases fuel with
    | zero => omega
    | succ fuel =>
      rw [readValue_array hblanks (hitems.opens hopens),
        hitems.refused hopens hitem fuel (by rw [List.length_append]; omega)]
      rfl
  | @entry depth _ _ _ name _ _ hblanks hentries hname ih =>
    rw [List.append_assoc, List.cons_append, List.append_assoc, List.append_assoc]
    refine ih ⟨_, _, rfl, by decide⟩ fun fuel hfuel => ?_
    simp only [List.length_cons, List.length_append] at hfuel
    have hentry : Refused (readEntries limit depth) 1 (name ++ text) fault :=
      refused_of_step fun fuel hfuel => readEntries_fault hname hopens
        (hrefused fuel (by rw [List.length_append] at hfuel; omega))
    cases fuel with
    | zero => omega
    | succ fuel =>
      rw [readValue_object hblanks (hentries.opens (hname.opens.append _)),
        hentries.refused (hname.opens.append _) hentry fuel
          (by simp only [List.length_append]; omega)]
      rfl

/-! ### Documents -/

theorem Exceeds.read_eq (h : Exceeds n whole text fault) : read (some n) whole text = .error fault := by
  cases h with
  | integer hfront hsign hdigits hlong hrest =>
    rcases hsign with rfl | rfl
    · refine hfront.read_refused ((opens_of_isWhole hdigits).append _) fun fuel hfuel => ?_
      cases fuel with
      | zero => exact absurd hfuel (by simp only [List.length_append]; omega)
      | succ fuel =>
        exact (readValue_positive hdigits).trans (readNumber_append_tooLong hdigits hlong hrest)
    · refine hfront.read_refused ⟨_, _, rfl, by decide⟩ fun fuel hfuel => ?_
      cases fuel with
      | zero => exact absurd hfuel (by rw [List.cons_append, List.length_cons]; omega)
      | succ fuel =>
        exact (readValue_negative hdigits).trans (readNumber_append_tooLong hdigits hlong hrest)
  | array hfront =>
    refine hfront.read_refused ⟨_, _, rfl, by decide⟩ fun fuel hfuel => ?_
    cases fuel with
    | zero => exact absurd hfuel (by rw [List.length_cons]; omega)
    | succ fuel => exact readValue_deepArray
  | object hfront =>
    refine hfront.read_refused ⟨_, _, rfl, by decide⟩ fun fuel hfuel => ?_
    cases fuel with
    | zero => exact absurd hfuel (by rw [List.length_cons]; omega)
    | succ fuel => exact readValue_deepObject

/-- **The reader refuses for another reason than the form** exactly a document that exceeds a limit. -/
theorem read_eq_error_iff (hn : 0 < n) (hfault : fault ≠ .malformed) :
    read (some n) whole text = .error fault ↔ Exceeds n whole text fault := by
  refine ⟨fun h => ?_, Exceeds.read_eq⟩
  obtain ⟨blanks, hblanks, htext⟩ := exists_skipSpace text
  cases hvalue : readValue (some n) whole (2 * text.length + 2) (skipSpace text) with
  | error found =>
    rw [read, hvalue] at h
    obtain rfl := Except.error.inj h
    rw [htext]
    exact (givesUp hn whole _).value hfault (.start hblanks) hvalue
  | ok parts =>
    rw [read, hvalue] at h
    simp only [bind, Except.bind] at h
    split at h
    · cases h
    · exact absurd (Except.error.inj h).symm hfault

/-- An array in an array, where there is room for one. What would come after its bracket does not count. -/
example : read (some 2) 1 "[1, [".toList = .error (.tooDeep .array) := rfl

end Corpus.Json
