-- Reading a text of which more may follow. A reader that has found a type, or a character
-- that no type goes on with, has made up its mind, and whatever is put behind the text is left
-- where it is. Only a reader that ran out of text can change its mind, and it has taken all
-- there was. Main statement: this holds of all five readers, so no descriptor goes on to be
-- another one, and every one that is cut short ends too early.
import SymbolicFrames.Proofs.DescriptorTexts

namespace SymbolicFrames

/-! ## More text behind a reading -/

namespace Reading

variable {α β : Type}

/-- The same reading of a longer text. What was added is left. -/
def followedBy (r : Reading α) (more : List Char) : Reading α :=
  { r with rest := r.rest ++ more }

/-- What was found is used to read on in what was left. An error stays one. -/
def andThen (r : Reading α) (next : α → List Char → Reading β) : Reading β :=
  match r.result with
  | .error e => .fail e r.rest
  | .ok a => next a r.rest

/-- The text was too short for the reader. -/
def EndsEarly (r : Reading α) : Prop :=
  ∃ expected, r.result = .error (.unexpectedEnd expected)

@[simp]
theorem followedBy_ok (a : α) (rest more : List Char) :
    (ok a rest).followedBy more = ok a (rest ++ more) := rfl

@[simp]
theorem followedBy_fail (e : DescriptorError) (rest more : List Char) :
    (fail e rest : Reading α).followedBy more = fail e (rest ++ more) := rfl

@[simp]
theorem andThen_ok (a : α) (rest : List Char) (next : α → List Char → Reading β) :
    (ok a rest).andThen next = next a rest := rfl

@[simp]
theorem andThen_fail (e : DescriptorError) (rest : List Char)
    (next : α → List Char → Reading β) :
    (fail e rest : Reading α).andThen next = fail e rest := rfl

@[simp]
theorem not_endsEarly_ok (a : α) (rest : List Char) : ¬ (ok a rest).EndsEarly := by
  simp [EndsEarly, ok]

@[simp]
theorem endsEarly_fail_iff {e : DescriptorError} {rest : List Char} :
    (fail e rest : Reading α).EndsEarly ↔ ∃ expected, e = .unexpectedEnd expected := by
  simp [EndsEarly, fail]

theorem eq_ok_or_eq_fail (r : Reading α) :
    (∃ a rest, r = ok a rest) ∨ ∃ e rest, r = fail e rest := by
  obtain ⟨result, rest⟩ := r
  cases result with
  | error e => exact Or.inr ⟨e, rest, rfl⟩
  | ok a => exact Or.inl ⟨a, rest, rfl⟩

theorem map_eq_andThen (f : α → β) (r : Reading α) :
    r.map f = r.andThen fun a rest => ok (f a) rest := by
  rcases r.eq_ok_or_eq_fail with ⟨a, rest, rfl⟩ | ⟨e, rest, rfl⟩
  · rfl
  · rfl

end Reading

/-! ## The end of a text -/

/-- How a reader takes the end of a text: it ran out of it and has taken all of it, or it has
made up its mind, whatever comes next. -/
inductive TakesEnd {α : Type} (read : List Char → Reading α) (source : List Char) : Prop
  | runsOut (expected : Expectation) (h : read source = .fail (.unexpectedEnd expected) [])
  | decided (henough : ¬ (read source).EndsEarly)
      (hmore : ∀ more, read (source ++ more) = (read source).followedBy more)

section Readers

variable {α β : Type} {read : List Char → Reading α} {source : List Char}

theorem takesEnd_of_found (a : α) (rest : List Char)
    (h : ∀ more, read (source ++ more) = .ok a (rest ++ more)) : TakesEnd read source := by
  have hstart : read source = .ok a rest := by simpa using h []
  refine .decided (by simp [hstart]) ?_
  intro more
  rw [h more, hstart, Reading.followedBy_ok]

theorem takesEnd_of_refused (e : DescriptorError) (rest : List Char)
    (he : ∀ expected, e ≠ .unexpectedEnd expected)
    (h : ∀ more, read (source ++ more) = .fail e (rest ++ more)) : TakesEnd read source := by
  have hstart : read source = .fail e rest := by simpa using h []
  refine .decided (by simpa [hstart] using he) ?_
  intro more
  rw [h more, hstart, Reading.followedBy_fail]

/-- A reader that does with a text and whatever follows it what another one does. -/
theorem TakesEnd.congr {read' : List Char → Reading α} {source' : List Char}
    (h : TakesEnd read source)
    (heq : ∀ more, read' (source' ++ more) = read (source ++ more)) : TakesEnd read' source' := by
  have hstart : read' source' = read source := by simpa using heq []
  cases h with
  | runsOut expected h => exact .runsOut expected (hstart.trans h)
  | decided henough hmore =>
    refine .decided (hstart ▸ henough) ?_
    intro more
    rw [heq more, hmore more, hstart]

/-- One reader after the other. The second one starts where the first has left off, and is
never asked if the first has refused the text. -/
theorem TakesEnd.andThen {next : α → List Char → Reading β} (h : TakesEnd read source)
    (hnext : ∀ a rest, read source = .ok a rest → TakesEnd (next a) rest) :
    TakesEnd (fun source => (read source).andThen next) source := by
  cases h with
  | runsOut expected h => exact .runsOut expected (congrArg (Reading.andThen · next) h)
  | decided henough hmore =>
    rcases (read source).eq_ok_or_eq_fail with ⟨a, rest, hread⟩ | ⟨e, rest, hread⟩
    · refine (hnext a rest hread).congr ?_
      intro more
      rw [hmore more, hread, Reading.followedBy_ok, Reading.andThen_ok]
    · rw [hread, Reading.endsEarly_fail_iff, not_exists] at henough
      refine takesEnd_of_refused e rest henough ?_
      intro more
      rw [hmore more, hread, Reading.followedBy_fail, Reading.andThen_fail]

theorem TakesEnd.map (h : TakesEnd read source) (f : α → β) :
    TakesEnd (fun source => (read source).map f) source := by
  simp only [Reading.map_eq_andThen]
  exact h.andThen fun a rest _ => takesEnd_of_found (f a) rest fun more => rfl

end Readers

/-! ## Base types and classes -/

theorem BaseType.takesEnd_read (source : List Char) : TakesEnd BaseType.read source := by
  cases source with
  | nil => exact .runsOut _ rfl
  | cons c rest =>
    rcases hletter : ofLetter? c with _ | t
    · refine takesEnd_of_refused (.unexpected c .baseType) rest (by simp) ?_
      intro more
      simp [read, hletter]
    · refine takesEnd_of_found t rest ?_
      intro more
      simp [read, hletter]

/-- What stops short of the end of a text stops at the same place in a longer one. -/
theorem takeWhile_dropWhile_append {p : Char → Bool} {source : List Char}
    (h : source.dropWhile p ≠ []) (more : List Char) :
    (source ++ more).takeWhile p = source.takeWhile p ∧
      (source ++ more).dropWhile p = source.dropWhile p ++ more := by
  have hsplit := congrArg List.length (List.takeWhile_append_dropWhile (p := p) (l := source))
  have hpos := List.length_pos_iff.mpr h
  rw [List.length_append] at hsplit
  rw [List.takeWhile_append, List.dropWhile_append, if_neg (by omega),
    if_neg (mt List.isEmpty_iff.mp h)]
  exact ⟨rfl, rfl⟩

namespace ClassName

/-- The name is complete with its semicolon, and only then is it checked. -/
theorem takesEnd_readName (source : List Char) : TakesEnd readName source := by
  rcases hdrop : source.dropWhile (· != ';') with _ | ⟨c, rest⟩
  · exact .runsOut .classNameEnd (by simp [readName, hdrop])
  · have hmore := takeWhile_dropWhile_append (p := (· != ';')) (hdrop ▸ List.cons_ne_nil c rest)
    rcases hname : ofString (String.ofList (source.takeWhile (· != ';'))) with e | name
    · refine takesEnd_of_refused (.invalidClassName e) rest (by simp) ?_
      intro more
      simp [readName, hmore more, hdrop, hname]
    · refine takesEnd_of_found name rest ?_
      intro more
      simp [readName, hmore more, hdrop, hname]

theorem takesEnd_read (source : List Char) : TakesEnd read source := by
  cases source with
  | nil => exact .runsOut _ rfl
  | cons c rest =>
    by_cases hc : c = 'L'
    · exact (takesEnd_readName rest).congr fun more => if_pos hc
    · exact takesEnd_of_refused (.unexpected c .objectStart) rest (by simp)
        fun more => if_neg hc

end ClassName

/-! ## References and fields -/

namespace RefType

/-- Which element type it is shows in its first character. -/
theorem takesEnd_readElement (extra : ExtraDims) (source : List Char) :
    TakesEnd (readElement extra) source := by
  cases source with
  | nil => exact .runsOut _ rfl
  | cons c rest =>
    by_cases hc : c = 'L'
    · refine ((ClassName.takesEnd_read (c :: rest)).map (objectArray extra)).congr ?_
      intro more
      exact if_pos (congrArg some hc)
    · refine ((BaseType.takesEnd_read (c :: rest)).map (primitiveArray extra)).congr ?_
      intro more
      exact if_neg fun hhead => hc (Option.some.inj hhead)

theorem takesEnd_read (source : List Char) : TakesEnd read source := by
  cases source with
  | nil => exact .runsOut _ rfl
  | cons c rest =>
    by_cases hL : c = 'L'
    · refine ((ClassName.takesEnd_read (c :: rest)).map object).congr ?_
      intro more
      exact if_pos hL
    · by_cases hB : c = '['
      · have hread : ∀ left, read (c :: left) =
            readElement (BitVec.ofNat 64 (left.takeWhile (· == '[')).length)
              (left.dropWhile (· == '[')) := by
          intro left
          rw [read, if_neg hL, if_pos hB]
        rcases hdrop : rest.dropWhile (· == '[') with _ | ⟨d, left⟩
        · -- Nothing but brackets: the element type has yet to come, and so may more brackets.
          exact .runsOut _ (by rw [hread, hdrop]; rfl)
        · have hmore := takeWhile_dropWhile_append (p := (· == '['))
            (hdrop ▸ List.cons_ne_nil d left)
          refine (takesEnd_readElement (BitVec.ofNat 64 (rest.takeWhile (· == '[')).length)
            (d :: left)).congr ?_
          intro more
          rw [List.cons_append, hread, (hmore more).1, (hmore more).2, hdrop]
      · refine takesEnd_of_refused (.unexpected c .referenceType) (c :: rest) (by simp) ?_
        intro more
        simp [read, hL, hB]

end RefType

theorem FieldType.takesEnd_read (source : List Char) : TakesEnd FieldType.read source := by
  cases source with
  | nil => exact .runsOut _ rfl
  | cons c rest =>
    by_cases hc : c = 'L' ∨ c = '['
    · refine ((RefType.takesEnd_read (c :: rest)).map FieldType.ref).congr ?_
      intro more
      exact if_pos hc
    · refine ((BaseType.takesEnd_read (c :: rest)).map FieldType.base).congr ?_
      intro more
      exact if_neg hc

/-! ## Methods -/

namespace MethodDescriptor

/-- Parameters are read one after the other. -/
theorem readParameters_cons {c : Char} (hc : c ≠ ')') (rest : List Char) :
    readParameters (c :: rest) = (FieldType.read (c :: rest)).andThen
      fun t left => (readParameters left).map (t :: ·) := by
  rw [readParameters, if_neg hc]
  rcases (FieldType.read (c :: rest)).eq_ok_or_eq_fail with ⟨t, left, hread⟩ | ⟨e, left, hread⟩
  · rw [hread]
    rfl
  · rw [hread]
    rfl

theorem read_cons {c : Char} (hc : c = '(') (rest : List Char) :
    read (c :: rest) = (readParameters rest).andThen
      fun types left => (readResult left).map (MethodDescriptor.mk types) := by
  rw [read, if_pos hc]
  rcases (readParameters rest).eq_ok_or_eq_fail with ⟨types, left, hread⟩ | ⟨e, left, hread⟩
  · rw [hread]
    rfl
  · rw [hread]
    rfl

theorem takesEnd_readParameters (source : List Char) : TakesEnd readParameters source := by
  -- The induction is on the length of the text, of which every parameter takes some.
  induction hlength : source.length using Nat.strongRecOn generalizing source with
  | ind n ih =>
    subst hlength
    cases source with
    | nil => exact .runsOut _ (by rw [readParameters])
    | cons c rest =>
      by_cases hc : c = ')'
      · refine takesEnd_of_found [] rest ?_
        intro more
        rw [List.cons_append, readParameters, if_pos hc]
      · refine TakesEnd.congr (TakesEnd.andThen (FieldType.takesEnd_read (c :: rest)) ?_)
          fun more => readParameters_cons hc (rest ++ more)
        intro t left hread
        have hshorter := FieldType.length_rest_read_lt c rest
        rw [hread] at hshorter
        exact (ih _ hshorter left rfl).map (t :: ·)

theorem takesEnd_readResult (source : List Char) : TakesEnd readResult source := by
  cases source with
  | nil => exact .runsOut _ rfl
  | cons c rest =>
    by_cases hc : c = 'V'
    · subst hc
      exact takesEnd_of_found none rest fun more => rfl
    · refine ((FieldType.takesEnd_read (c :: rest)).map some).congr ?_
      intro more
      rw [List.cons_append, readResult]
      intro left hV
      exact hc (List.cons.inj hV).1

theorem takesEnd_read (source : List Char) : TakesEnd read source := by
  cases source with
  | nil => exact .runsOut _ rfl
  | cons c rest =>
    by_cases hc : c = '('
    · refine TakesEnd.congr (TakesEnd.andThen (takesEnd_readParameters rest) ?_)
        fun more => read_cons hc (rest ++ more)
      intro types left _
      exact (takesEnd_readResult left).map (MethodDescriptor.mk types)
    · exact takesEnd_of_refused (.unexpected c .methodStart) rest (by simp)
        fun more => if_neg hc

end MethodDescriptor

/-! ## Pieces of a text -/

section Pieces

variable {α : Type} {read : List Char → Reading α}

/-- What the reader found in a text it finds in every longer one, and what it refused it
refuses there in the same way, leaving the rest and what was added. If it came to an
unexpected end, then it left nothing. -/
structure Incremental (read : List Char → Reading α) : Prop where
  found : ∀ {source rest d}, read source = .ok d rest →
    ∀ more, read (source ++ more) = .ok d (rest ++ more)
  refused : ∀ {source rest e}, read source = .fail e rest →
    (∀ expected, e ≠ .unexpectedEnd expected) →
    ∀ more, read (source ++ more) = .fail e (rest ++ more)
  exhausted : ∀ {source rest expected}, read source = .fail (.unexpectedEnd expected) rest →
    rest = []

theorem incremental_of_takesEnd (h : ∀ source, TakesEnd read source) : Incremental read where
  found := by
    intro source rest d hread more
    cases h source with
    | runsOut _ hout => rw [hread] at hout; cases hout
    | decided _ hmore => rw [hmore, hread, Reading.followedBy_ok]
  refused := by
    intro source rest e hread he more
    cases h source with
    | runsOut _ hout =>
      rw [hread] at hout
      cases hout
      exact absurd rfl (he _)
    | decided _ hmore => rw [hmore, hread, Reading.followedBy_fail]
  exhausted := by
    intro source rest expected hread
    cases h source with
    | runsOut _ hout =>
      rw [hread] at hout
      cases hout
      rfl
    | decided henough _ => exact absurd ⟨expected, congrArg Reading.result hread⟩ henough

/-- No text that is accepted goes on to be another one, and what is left of one that is cut
short ends too early. -/
structure PrefixFree (parse : String → Except DescriptorError α) : Prop where
  complete : ∀ {text more d d'}, parse text = .ok d → parse (text ++ more) = .ok d' → more = ""
  cut_short : ∀ {text more d}, parse (text ++ more) = .ok d → more ≠ "" →
    ∃ expected, parse text = .error (.unexpectedEnd expected)

theorem Incremental.cut_short (h : Incremental read) {source more : List Char} {d : α}
    (hwhole : (read (source ++ more)).whole = .ok d) (hmore : more ≠ []) :
    ∃ expected, (read source).whole = .error (.unexpectedEnd expected) := by
  rw [Reading.whole_eq_ok_iff] at hwhole
  rcases hread : read source with ⟨e | d', rest⟩
  · by_cases he : ∃ expected, e = .unexpectedEnd expected
    · obtain ⟨expected, rfl⟩ := he
      exact ⟨expected, rfl⟩
    · have hrefused := h.refused hread (not_exists.mp he) more
      rw [hwhole] at hrefused
      cases hrefused
  · have hfound := h.found hread more
    rw [hwhole, Reading.ok_eq_ok_iff] at hfound
    exact absurd (List.append_eq_nil_iff.mp hfound.2.symm).2 hmore

theorem Incremental.prefixFree (h : Incremental read) :
    PrefixFree fun text => (read text.toList).whole := by
  have hcut : ∀ {text more d}, (read (text ++ more).toList).whole = .ok d → more ≠ "" →
      ∃ expected, (read text.toList).whole = .error (.unexpectedEnd expected) := by
    intro text more d hwhole hmore
    rw [String.toList_append] at hwhole
    exact h.cut_short hwhole (mt String.toList_eq_nil_iff.mp hmore)
  refine ⟨?_, hcut⟩
  intro text more d d' hshort hlong
  apply Decidable.byContradiction
  intro hmore
  obtain ⟨expected, hend⟩ := hcut hlong hmore
  rw [hshort] at hend
  cases hend

end Pieces

/-- A text can be read piece by piece. None of the readers changes its mind when more follows,
unless it ran out of text. So no descriptor is the beginning of another one of its kind, and
whatever is only the beginning of one ends too early. -/
theorem readers_do_not_look_ahead :
    (Incremental BaseType.read ∧ Incremental ClassName.read ∧ Incremental RefType.read ∧
      Incremental FieldType.read ∧ Incremental MethodDescriptor.read) ∧
    PrefixFree BaseType.parse ∧ PrefixFree ClassName.parse ∧ PrefixFree RefType.parse ∧
      PrefixFree FieldType.parse ∧ PrefixFree MethodDescriptor.parse := by
  have hbase := incremental_of_takesEnd BaseType.takesEnd_read
  have hclass := incremental_of_takesEnd ClassName.takesEnd_read
  have href := incremental_of_takesEnd RefType.takesEnd_read
  have hfield := incremental_of_takesEnd FieldType.takesEnd_read
  have hmethod := incremental_of_takesEnd MethodDescriptor.takesEnd_read
  exact ⟨⟨hbase, hclass, href, hfield, hmethod⟩, hbase.prefixFree, hclass.prefixFree,
    href.prefixFree, hfield.prefixFree, hmethod.prefixFree⟩

/-! ## A descriptor cut in two -/

/-- Takes a long and an array of arrays of objects, and gives an array of numbers. -/
def arrayMethod : MethodDescriptor :=
  ⟨[.base .long, .ref (.objectArray 1 ⟨"a/B", rfl⟩)], some (.ref (.primitiveArray 0 .int))⟩

theorem arrayMethod_countable : arrayMethod.Countable := by
  simp [MethodDescriptor.Countable, arrayMethod, FieldType.Countable, RefType.Countable,
    ExtraDims.Countable]

/-- Cut inside the class name or behind the last bracket, the descriptor ends too early. An array
of a class without a name is refused as soon as the name is over, and the rest is left. -/
theorem arrays_cut_anywhere_end_early :
    MethodDescriptor.parse ("(J[[La/" ++ "B;)[I") = .ok arrayMethod ∧
      (∃ expected, MethodDescriptor.parse "(J[[La/" = .error (.unexpectedEnd expected)) ∧
      (∃ expected, MethodDescriptor.parse "(J[[La/B;)[" = .error (.unexpectedEnd expected)) ∧
      FieldType.read "[[L;".toList = .fail (.invalidClassName .emptyClass) [] ∧
      FieldType.read ("[[L;".toList ++ "I)V".toList)
        = .fail (.invalidClassName .emptyClass) "I)V".toList := by
  obtain ⟨⟨-, -, -, hread, -⟩, -, -, -, -, hparse⟩ := readers_do_not_look_ahead
  have hwritten : ∀ text, text = arrayMethod.descriptor →
      MethodDescriptor.parse text = .ok arrayMethod := by
    intro text htext
    rw [htext]
    exact whole_written MethodDescriptor.read_encode arrayMethod_countable
  have hname : MethodDescriptor.parse ("(J[[La/" ++ "B;)[I") = .ok arrayMethod :=
    hwritten _ (by decide)
  have hbracket : MethodDescriptor.parse ("(J[[La/B;)[" ++ "I") = .ok arrayMethod :=
    hwritten _ (by decide)
  have hrefused : FieldType.read "[[L;".toList = .fail (.invalidClassName .emptyClass) [] := rfl
  exact ⟨hname, hparse.cut_short hname (by decide), hparse.cut_short hbracket (by decide),
    hrefused, hread.refused hrefused (by simp) "I)V".toList⟩

end SymbolicFrames
