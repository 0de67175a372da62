-- Reading and writing descriptors undo each other, as long as dimensions can be counted. A
-- reader takes a type off the front of a text exactly if the text starts with what is written
-- for that type, no array in the type has the largest count of dimensions, and it takes
-- exactly that. Main statement: this holds of all five readers, so a text is accepted as a
-- whole exactly if it is a written one. An array with the largest count is written without
-- its brackets, and read back as something else.
import Mathlib.Algebra.Group.Nat.Defs
import SymbolicFrames.Descriptor.Reader

namespace SymbolicFrames

/-! ## Names -/

/-- Cutting a text into segments loses the slashes and nothing else. -/
theorem flatten_segments (text : List Char) :
    (segments text).flatten = text.filter (· != '/') := by
  induction text with
  | nil => rfl
  | cons c rest ih =>
    rw [segments, List.filter_cons]
    by_cases hc : c = '/'
    · simp [hc, ih]
    · cases hrest : segments rest with
      | nil =>
        rw [hrest] at ih
        simp [hc, ← ih]
      | cons first others =>
        rw [hrest] at ih
        simp [hc, ← ih]

theorem exists_segment_iff {c : Char} {text : List Char} :
    (∃ part ∈ segments text, c ∈ part) ↔ c ∈ text ∧ c ≠ '/' := by
  rw [← List.mem_flatten, flatten_segments, List.mem_filter, bne_iff_ne]

theorem isSegment_iff {part : List Char} :
    isSegment part = true ↔
      part ≠ [] ∧ ∀ c ∈ part, isReserved c = false ∧ isAngleBracket c = false := by
  simp [isSegment]

theorem checkClassName_eq_ok_iff {text : String} :
    checkClassName text = .ok () ↔
      text.toList ≠ [] ∧ ∀ part ∈ segments text.toList, isSegment part = true := by
  unfold checkClassName
  split
  · rename_i hempty
    simp [List.isEmpty_iff.mp hempty]
  · rename_i hempty
    rw [List.isEmpty_iff] at hempty
    split
    · rename_i hall
      simpa [hempty] using hall
    · rename_i hall
      simpa [hempty] using hall

namespace ClassName

theorem not_isReserved (name : ClassName) {c : Char} (hc : c ∈ name.text.toList) :
    isReserved c = false := by
  by_cases hslash : c = '/'
  · subst hslash
    rfl
  · obtain ⟨part, hpart, hmem⟩ := exists_segment_iff.mpr ⟨hc, hslash⟩
    have hsegment := (checkClassName_eq_ok_iff.mp name.valid).2 part hpart
    exact ((isSegment_iff.mp hsegment).2 c hmem).1

theorem ofString_eq_ok_iff {text : String} {name : ClassName} :
    ofString text = .ok name ↔ name.text = text := by
  unfold ofString
  split
  · rename_i h
    constructor
    · intro heq
      cases heq
      rfl
    · rintro rfl
      rfl
  · rename_i e h
    constructor
    · intro heq
      cases heq
    · rintro rfl
      rw [name.valid] at h
      cases h

end ClassName

/-! ## Readings -/

namespace Reading

variable {α β : Type}

@[simp]
theorem ok_eq_ok_iff {a b : α} {rest rest' : List Char} :
    (ok a rest : Reading α) = ok b rest' ↔ a = b ∧ rest = rest' := by
  simp [ok]

@[simp]
theorem fail_ne_ok {e : DescriptorError} {a : α} {rest rest' : List Char} :
    (fail e rest : Reading α) ≠ ok a rest' := by
  simp [fail, ok]

theorem map_eq_ok_iff {f : α → β} {r : Reading α} {b : β} {rest : List Char} :
    r.map f = ok b rest ↔ ∃ a, r = ok a rest ∧ f a = b := by
  obtain ⟨result, left⟩ := r
  cases result with
  | error e => simp [map, ok, Except.map]
  | ok a =>
    simp only [map, ok, Except.map, mk.injEq, Except.ok.injEq]
    constructor
    · rintro ⟨rfl, rfl⟩
      exact ⟨a, ⟨rfl, rfl⟩, rfl⟩
    · rintro ⟨_, ⟨rfl, rfl⟩, rfl⟩
      exact ⟨rfl, rfl⟩

theorem eq_ok_iff {r : Reading α} {a : α} {rest : List Char} :
    r = ok a rest ↔ r.result = .ok a ∧ r.rest = rest := by
  obtain ⟨result, left⟩ := r
  simp [ok]

theorem whole_eq_ok_iff {r : Reading α} {a : α} : r.whole = .ok a ↔ r = ok a [] := by
  obtain ⟨result, left⟩ := r
  cases result with
  | error e => simp [whole, ok]
  | ok b => cases left <;> simp [whole, ok]

end Reading

/-! ## Base types and classes -/

namespace BaseType

theorem ofLetter?_eq_some_iff {c : Char} {t : BaseType} : ofLetter? c = some t ↔ c = t.letter := by
  constructor
  · intro h
    unfold ofLetter? at h
    split at h <;> cases h <;> rfl
  · rintro rfl
    cases t <;> rfl

theorem read_eq_ok_iff {source rest : List Char} {t : BaseType} :
    read source = .ok t rest ↔ source = t.encode ++ rest := by
  cases source with
  | nil => simp [read, encode]
  | cons c left =>
    rw [read, encode, List.singleton_append, List.cons.injEq, ← ofLetter?_eq_some_iff]
    split
    · rename_i hletter
      rw [Reading.ok_eq_ok_iff, hletter, Option.some.injEq]
    · rename_i hletter
      simp [hletter]

/-- What starts with a letter of a base type is no reference, no end of the parameters and no
missing result. -/
theorem letter_ne (t : BaseType) :
    t.letter ≠ 'L' ∧ t.letter ≠ '[' ∧ t.letter ≠ ')' ∧ t.letter ≠ 'V' := by
  cases t <;> decide

end BaseType

namespace ClassName

/-- The name goes up to the first semicolon, and no name has one in it. -/
theorem readName_eq_ok_iff {source rest : List Char} {name : ClassName} :
    readName source = .ok name rest ↔ source = name.text.toList ++ ';' :: rest := by
  unfold readName
  constructor
  · intro h
    split at h
    · simp at h
    · rename_i c left hdrop
      have hhead : (c != ';') = false := by
        have hfound := List.head?_dropWhile_not (· != ';') source
        simpa [hdrop] using hfound
      have hsplit := List.takeWhile_append_dropWhile (p := (· != ';')) (l := source)
      split at h
      · rename_i name' hname
        rw [Reading.ok_eq_ok_iff] at h
        obtain ⟨rfl, rfl⟩ := h
        rw [ofString_eq_ok_iff] at hname
        rw [bne_eq_false_iff_eq] at hhead
        subst hhead
        rw [hname, String.toList_ofList, ← hdrop, hsplit]
      · simp at h
  · rintro rfl
    have hbefore : ∀ c ∈ name.text.toList, (c != ';') = true := by
      intro c hc
      have hfree := name.not_isReserved hc
      simp only [isReserved, Bool.or_eq_false_iff, beq_eq_false_iff_ne] at hfree
      exact bne_iff_ne.mpr hfree.1.2
    have hname : ofString name.text = .ok name := ofString_eq_ok_iff.mpr rfl
    rw [List.dropWhile_append_of_pos hbefore, List.takeWhile_append_of_pos hbefore]
    simp [hname]

theorem read_eq_ok_iff {source rest : List Char} {name : ClassName} :
    read source = .ok name rest ↔ source = name.encode ++ rest := by
  cases source with
  | nil => simp [read, encode]
  | cons c left =>
    simp only [read, encode, List.cons_append, List.append_assoc, List.nil_append, List.cons.injEq]
    split
    · rename_i hc
      simp [hc, readName_eq_ok_iff]
    · rename_i hc
      simp [hc]

end ClassName

/-! ## Counts of dimensions -/

namespace ExtraDims

/-- There is room in the word for the first dimension too. -/
def Countable (extra : ExtraDims) : Prop := extra.toNat + 1 < 2 ^ 64

theorem all_eq (extra : ExtraDims) : extra.all = (extra.toNat + 1) % 2 ^ 64 := rfl

theorem all_of_countable {extra : ExtraDims} (h : extra.Countable) :
    extra.all = extra.toNat + 1 := by
  rw [all_eq, Nat.mod_eq_of_lt h]

end ExtraDims

def RefType.Countable : RefType → Prop
  | .object _ => True
  | .objectArray extra _ => extra.Countable
  | .primitiveArray extra _ => extra.Countable

def FieldType.Countable : FieldType → Prop
  | .base _ => True
  | .ref t => t.Countable

/-- The dimensions of every array in the descriptor can be counted. -/
def MethodDescriptor.Countable (d : MethodDescriptor) : Prop :=
  ∀ t ∈ d.parameters ++ d.result.toList, t.Countable

/-- The places in the text can be counted in a word, as those of every text in memory can. -/
def Addressable (source : List Char) : Prop := source.length < 2 ^ 64

theorem Addressable.of_append {front source : List Char} (h : Addressable (front ++ source)) :
    Addressable source := by
  unfold Addressable at *
  rw [List.length_append] at h
  omega

/-! ## References and fields -/

namespace RefType

theorem brackets_eq_cons {extra : ExtraDims} (h : extra.Countable) :
    brackets extra = '[' :: List.replicate extra.toNat '[' := by
  rw [brackets, ExtraDims.all_of_countable h, List.replicate_succ]

/-- A text that starts with a bracket is all its brackets and what follows the last of them. The
bracket that was seen first is the dimension that the count leaves out. -/
theorem cons_eq_brackets_append {source : List Char} {extra : ExtraDims}
    (hextra : extra.toNat = (source.takeWhile (· == '[')).length) (h : extra.Countable) :
    '[' :: source = brackets extra ++ source.dropWhile (· == '[') := by
  have hall : ∀ c ∈ source.takeWhile (· == '['), c = '[' := by
    intro c hc
    exact eq_of_beq (List.all_eq_true.mp (List.all_takeWhile (p := (· == '['))) c hc)
  rw [brackets_eq_cons h, hextra, List.cons_append, ← List.eq_replicate_of_mem hall,
    List.takeWhile_append_dropWhile]

/-- The brackets of a text in memory can be counted, with the one that was seen first. -/
theorem countable_takeWhile {source : List Char} (h : Addressable ('[' :: source)) :
    (BitVec.ofNat 64 (source.takeWhile (· == '[')).length).toNat
        = (source.takeWhile (· == '[')).length ∧
      ExtraDims.Countable (BitVec.ofNat 64 (source.takeWhile (· == '[')).length) := by
  have hle := (List.takeWhile_sublist (l := source) (· == '[')).length_le
  have hlt : (source.takeWhile (· == '[')).length + 1 < 2 ^ 64 :=
    Nat.lt_of_le_of_lt (Nat.succ_le_succ hle) h
  have hcount : (BitVec.ofNat 64 (source.takeWhile (· == '[')).length).toNat
      = (source.takeWhile (· == '[')).length :=
    Nat.mod_eq_of_lt (Nat.lt_of_succ_lt hlt)
  refine ⟨hcount, ?_⟩
  rwa [ExtraDims.Countable, hcount]

theorem takeWhile_brackets {n : Nat} {c : Char} {rest : List Char} (hc : c ≠ '[') :
    (List.replicate n '[' ++ c :: rest).takeWhile (· == '[') = List.replicate n '[' := by
  rw [List.takeWhile_append_of_pos (by simp)]
  simp [hc]

theorem dropWhile_brackets {n : Nat} {c : Char} {rest : List Char} (hc : c ≠ '[') :
    (List.replicate n '[' ++ c :: rest).dropWhile (· == '[') = c :: rest := by
  rw [List.dropWhile_append_of_pos (by simp)]
  simp [hc]

theorem readElement_eq_ok_iff {extra : ExtraDims} {source rest : List Char} {t : RefType} :
    readElement extra source = .ok t rest ↔
      (∃ name : ClassName, t = .objectArray extra name ∧ source = name.encode ++ rest) ∨
      (∃ base : BaseType, t = .primitiveArray extra base ∧ source = base.encode ++ rest) := by
  unfold readElement
  split
  · rename_i hhead
    rw [Reading.map_eq_ok_iff]
    simp only [ClassName.read_eq_ok_iff]
    constructor
    · rintro ⟨name, hsource, rfl⟩
      exact Or.inl ⟨name, rfl, hsource⟩
    · rintro (⟨name, rfl, hsource⟩ | ⟨base, rfl, rfl⟩)
      · exact ⟨name, hsource, rfl⟩
      · exact absurd (Option.some.inj hhead) base.letter_ne.1
  · rename_i hhead
    rw [Reading.map_eq_ok_iff]
    simp only [BaseType.read_eq_ok_iff]
    constructor
    · rintro ⟨base, hsource, rfl⟩
      exact Or.inr ⟨base, rfl, hsource⟩
    · rintro (⟨name, rfl, rfl⟩ | ⟨base, rfl, hsource⟩)
      · exact absurd rfl hhead
      · exact ⟨base, hsource, rfl⟩

theorem encode_of_read {source rest : List Char} {t : RefType} (hsource : Addressable source)
    (h : read source = .ok t rest) : source = t.encode ++ rest ∧ t.Countable := by
  cases source with
  | nil => simp [read] at h
  | cons c left =>
    rw [read] at h
    split at h
    · obtain ⟨name, hname, rfl⟩ := Reading.map_eq_ok_iff.mp h
      exact ⟨ClassName.read_eq_ok_iff.mp hname, trivial⟩
    · split at h
      · rename_i hc
        subst hc
        obtain ⟨hcount, hcountable⟩ := countable_takeWhile hsource
        rw [cons_eq_brackets_append hcount hcountable]
        rcases readElement_eq_ok_iff.mp h with ⟨name, rfl, helement⟩ | ⟨base, rfl, helement⟩
        · rw [encode, List.append_assoc, ← helement]
          exact ⟨rfl, hcountable⟩
        · rw [encode, List.append_assoc, ← helement]
          exact ⟨rfl, hcountable⟩
      · simp at h

/-- Brackets are counted up to the element type, which never starts with one. -/
theorem read_brackets {extra : ExtraDims} {c : Char} {rest : List Char} (h : extra.Countable)
    (hc : c ≠ '[') : read (brackets extra ++ c :: rest) = readElement extra (c :: rest) := by
  have hread : read ('[' :: (List.replicate extra.toNat '[' ++ c :: rest)) =
      readElement (BitVec.ofNat 64
          ((List.replicate extra.toNat '[' ++ c :: rest).takeWhile (· == '[')).length)
        ((List.replicate extra.toNat '[' ++ c :: rest).dropWhile (· == '[')) := rfl
  rw [brackets_eq_cons h, List.cons_append, hread, takeWhile_brackets hc, dropWhile_brackets hc,
    List.length_replicate, BitVec.ofNat_toNat, BitVec.setWidth_eq]

theorem read_encode {t : RefType} (h : t.Countable) (rest : List Char) :
    read (t.encode ++ rest) = .ok t rest := by
  cases t with
  | object name =>
    have hname : ClassName.read (name.encode ++ rest) = .ok name rest :=
      ClassName.read_eq_ok_iff.mpr rfl
    exact Reading.map_eq_ok_iff.mpr ⟨name, hname, rfl⟩
  | objectArray extra name =>
    rw [encode, List.append_assoc, ClassName.encode, List.cons_append,
      read_brackets h (by decide), readElement_eq_ok_iff]
    exact Or.inl ⟨name, rfl, rfl⟩
  | primitiveArray extra base =>
    rw [encode, List.append_assoc, BaseType.encode, List.cons_append,
      read_brackets h base.letter_ne.2.1, readElement_eq_ok_iff]
    exact Or.inr ⟨base, rfl, rfl⟩

theorem encode_eq_cons {t : RefType} (h : t.Countable) :
    ∃ c left, t.encode = c :: left ∧ (c = 'L' ∨ c = '[') := by
  cases t with
  | object name => exact ⟨_, _, rfl, Or.inl rfl⟩
  | objectArray extra name =>
    rw [encode, brackets_eq_cons h]
    exact ⟨_, _, rfl, Or.inr rfl⟩
  | primitiveArray extra base =>
    rw [encode, brackets_eq_cons h]
    exact ⟨_, _, rfl, Or.inr rfl⟩

end RefType

namespace FieldType

theorem encode_of_read {source rest : List Char} {t : FieldType} (hsource : Addressable source)
    (h : read source = .ok t rest) : source = t.encode ++ rest ∧ t.Countable := by
  cases source with
  | nil => simp [read] at h
  | cons c left =>
    rw [read] at h
    split at h
    · obtain ⟨ref, href, rfl⟩ := Reading.map_eq_ok_iff.mp h
      exact RefType.encode_of_read hsource href
    · obtain ⟨base, hbase, rfl⟩ := Reading.map_eq_ok_iff.mp h
      exact ⟨BaseType.read_eq_ok_iff.mp hbase, trivial⟩

theorem read_encode {t : FieldType} (h : t.Countable) (rest : List Char) :
    read (t.encode ++ rest) = .ok t rest := by
  cases t with
  | base base =>
    have hbase : BaseType.read (base.encode ++ rest) = .ok base rest :=
      BaseType.read_eq_ok_iff.mpr rfl
    have hfield : read (base.encode ++ rest) = (BaseType.read (base.encode ++ rest)).map .base :=
      if_neg (not_or.mpr ⟨base.letter_ne.1, base.letter_ne.2.1⟩)
    rw [encode, hfield]
    exact Reading.map_eq_ok_iff.mpr ⟨base, hbase, rfl⟩
  | ref ref =>
    have href := RefType.read_encode h rest
    obtain ⟨c, left, hencode, hc⟩ := RefType.encode_eq_cons h
    rw [encode]
    rw [hencode, List.cons_append] at href ⊢
    rw [read, if_pos hc]
    exact Reading.map_eq_ok_iff.mpr ⟨ref, href, rfl⟩

/-- A field type cannot be mistaken for the end of the parameters or for a missing result. -/
theorem encode_eq_cons {t : FieldType} (h : t.Countable) :
    ∃ c left, t.encode = c :: left ∧ c ≠ ')' ∧ c ≠ 'V' := by
  cases t with
  | base base => exact ⟨_, _, rfl, base.letter_ne.2.2⟩
  | ref ref =>
    obtain ⟨c, left, hencode, hc⟩ := RefType.encode_eq_cons h
    refine ⟨c, left, hencode, ?_⟩
    rcases hc with rfl | rfl <;> decide

end FieldType

/-! ## Methods -/

namespace MethodDescriptor

theorem encode_of_readParameters {source rest : List Char} {types : List FieldType}
    (hsource : Addressable source) (h : readParameters source = .ok types rest) :
    source = types.flatMap FieldType.encode ++ ')' :: rest ∧ ∀ t ∈ types, t.Countable := by
  fun_induction readParameters source generalizing types with
  | case1 => simp at h
  | case2 left =>
    rw [Reading.ok_eq_ok_iff] at h
    obtain ⟨rfl, rfl⟩ := h
    exact ⟨rfl, by simp⟩
  | case3 => simp at h
  | case4 =>
    rename_i hfirst ih
    obtain ⟨others, hothers, rfl⟩ := Reading.map_eq_ok_iff.mp h
    obtain ⟨hread, hcountable⟩ :=
      FieldType.encode_of_read hsource (Reading.eq_ok_iff.mpr ⟨hfirst, rfl⟩)
    rw [hread] at hsource
    obtain ⟨hrest, hall⟩ := ih hsource.of_append hothers
    rw [hread, hrest, List.flatMap_cons, List.append_assoc]
    exact ⟨rfl, List.forall_mem_cons.mpr ⟨hcountable, hall⟩⟩

theorem readParameters_encode {types : List FieldType} (h : ∀ t ∈ types, t.Countable)
    (rest : List Char) :
    readParameters (types.flatMap FieldType.encode ++ ')' :: rest) = .ok types rest := by
  induction types with
  | nil => simp [readParameters]
  | cons t types ih =>
    obtain ⟨ht, htypes⟩ := List.forall_mem_cons.mp h
    have hread := FieldType.read_encode ht (types.flatMap FieldType.encode ++ ')' :: rest)
    obtain ⟨c, left, hencode, hc, -⟩ := FieldType.encode_eq_cons ht
    rw [List.flatMap_cons, List.append_assoc]
    rw [hencode, List.cons_append] at hread ⊢
    rw [readParameters, if_neg hc]
    simp only [hread]
    exact Reading.map_eq_ok_iff.mpr ⟨types, ih htypes, rfl⟩

theorem encode_of_readResult {source rest : List Char} {type : Option FieldType}
    (hsource : Addressable source) (h : readResult source = .ok type rest) :
    source = encodeResult type ++ rest ∧ ∀ t ∈ type.toList, t.Countable := by
  unfold readResult at h
  split at h
  · rw [Reading.ok_eq_ok_iff] at h
    obtain ⟨rfl, rfl⟩ := h
    exact ⟨rfl, by simp⟩
  · obtain ⟨t, ht, rfl⟩ := Reading.map_eq_ok_iff.mp h
    simpa [encodeResult] using FieldType.encode_of_read hsource ht

theorem readResult_encode {type : Option FieldType} (h : ∀ t ∈ type.toList, t.Countable)
    (rest : List Char) : readResult (encodeResult type ++ rest) = .ok type rest := by
  cases type with
  | none => rfl
  | some t =>
    have ht : t.Countable := h t (by simp)
    have hread := FieldType.read_encode ht rest
    obtain ⟨c, left, hencode, -, hc⟩ := FieldType.encode_eq_cons ht
    rw [encodeResult, readResult]
    · exact Reading.map_eq_ok_iff.mpr ⟨t, hread, rfl⟩
    · intro others hsource
      rw [hencode, List.cons_append, List.cons.injEq] at hsource
      exact hc hsource.1

theorem encode_append (d : MethodDescriptor) (rest : List Char) :
    d.encode ++ rest = '(' :: (d.parameters.flatMap FieldType.encode
      ++ ')' :: (encodeResult d.result ++ rest)) := by
  simp [encode]

theorem encode_of_read {source rest : List Char} {d : MethodDescriptor}
    (hsource : Addressable source) (h : read source = .ok d rest) :
    source = d.encode ++ rest ∧ d.Countable := by
  rw [encode_append]
  cases source with
  | nil => simp [read] at h
  | cons c left =>
    rw [read] at h
    split at h
    · rename_i hc
      simp only at h
      split at h
      · simp at h
      · rename_i types htypes
        obtain ⟨type, hresult, rfl⟩ := Reading.map_eq_ok_iff.mp h
        have hsplit : Addressable ([c] ++ left) := hsource
        have hleft := hsplit.of_append
        obtain ⟨hparameters, hcountable⟩ :=
          encode_of_readParameters hleft (Reading.eq_ok_iff.mpr ⟨htypes, rfl⟩)
        rw [hparameters, List.append_cons] at hleft
        obtain ⟨hrest, hcountable'⟩ := encode_of_readResult hleft.of_append hresult
        rw [hrest] at hparameters
        rw [hc, hparameters]
        exact ⟨rfl, List.forall_mem_append.mpr ⟨hcountable, hcountable'⟩⟩
    · simp at h

theorem read_encode {d : MethodDescriptor} (h : d.Countable) (rest : List Char) :
    read (d.encode ++ rest) = .ok d rest := by
  obtain ⟨hparameters, hresult⟩ := List.forall_mem_append.mp h
  have hread := readParameters_encode hparameters (encodeResult d.result ++ rest)
  rw [encode_append, read, if_pos rfl]
  simp only [hread]
  exact Reading.map_eq_ok_iff.mpr ⟨d.result, readResult_encode hresult rest, rfl⟩

end MethodDescriptor

/-! ## All readers -/

/-- The class names inside a type. -/
def RefType.classNames : RefType → List ClassName
  | .object name => [name]
  | .objectArray _ element => [element]
  | .primitiveArray _ _ => []

def FieldType.classNames : FieldType → List ClassName
  | .base _ => []
  | .ref t => t.classNames

def MethodDescriptor.classNames (d : MethodDescriptor) : List ClassName :=
  (d.parameters ++ d.result.toList).flatMap FieldType.classNames

/-- The text is what is written for a value, followed by the rest, and every class name inside
the value passes its check. -/
def IsWritten {α : Type} (encode : α → List Char) (classNames : α → List ClassName)
    (source : List Char) (d : α) (rest : List Char) : Prop :=
  source = encode d ++ rest ∧ ∀ name ∈ classNames d, checkClassName name.text = .ok ()

section Readers

variable {α : Type} {read : List Char → Reading α} {encode : α → List Char}
  {Countable : α → Prop}

theorem read_iff_isWritten
    (h : ∀ {source rest d}, read source = .ok d rest ↔ source = encode d ++ rest)
    (classNames : α → List ClassName) (source : List Char) (d : α) (rest : List Char) :
    read source = .ok d rest ↔ IsWritten encode classNames source d rest := by
  rw [h]
  -- A class name has passed its check, or it would not be one.
  exact ⟨fun hsource => ⟨hsource, fun name _ => name.valid⟩, And.left⟩

theorem read_iff_isWritten_and_countable
    (hback : ∀ {source rest d}, Addressable source → read source = .ok d rest →
      source = encode d ++ rest ∧ Countable d)
    (hforth : ∀ {d}, Countable d → ∀ rest, read (encode d ++ rest) = .ok d rest)
    (classNames : α → List ClassName) {source : List Char} (hsource : Addressable source) (d : α)
    (rest : List Char) :
    read source = .ok d rest ↔ IsWritten encode classNames source d rest ∧ Countable d := by
  constructor
  · intro hread
    obtain ⟨hwritten, hcountable⟩ := hback hsource hread
    exact ⟨⟨hwritten, fun name _ => name.valid⟩, hcountable⟩
  · rintro ⟨⟨rfl, -⟩, hcountable⟩
    exact hforth hcountable rest

theorem whole_eq_ok_iff_written
    (h : ∀ {source rest d}, read source = .ok d rest ↔ source = encode d ++ rest)
    (text : String) (d : α) :
    (read text.toList).whole = .ok d ↔ text = String.ofList (encode d) := by
  rw [Reading.whole_eq_ok_iff, h, List.append_nil]
  constructor
  · intro htext
    rw [← htext, String.ofList_toList]
  · rintro rfl
    exact String.toList_ofList

/-- A value that can be counted is read from what is written for it, however long that is. -/
theorem whole_written (hforth : ∀ {d}, Countable d → ∀ rest, read (encode d ++ rest) = .ok d rest)
    {d : α} (h : Countable d) : (read (String.ofList (encode d)).toList).whole = .ok d := by
  have hread := hforth h []
  rw [List.append_nil] at hread
  rw [String.toList_ofList, Reading.whole_eq_ok_iff, hread]

theorem whole_eq_ok_iff_countable
    (hback : ∀ {source rest d}, Addressable source → read source = .ok d rest →
      source = encode d ++ rest ∧ Countable d)
    (hforth : ∀ {d}, Countable d → ∀ rest, read (encode d ++ rest) = .ok d rest)
    {text : String} (htext : Addressable text.toList) (d : α) :
    (read text.toList).whole = .ok d ↔ text = String.ofList (encode d) ∧ Countable d := by
  constructor
  · intro hwhole
    obtain ⟨hwritten, hcountable⟩ := hback htext (Reading.whole_eq_ok_iff.mp hwhole)
    rw [List.append_nil] at hwritten
    rw [← hwritten, String.ofList_toList]
    exact ⟨rfl, hcountable⟩
  · rintro ⟨rfl, hcountable⟩
    exact whole_written hforth hcountable

end Readers

/-- Whatever stands between `L` and a semicolon is read as a class exactly if it is the name
of one. -/
theorem ClassName.exists_read_iff {source rest : List Char} {text : String} :
    (∃ name : ClassName, name.text = text ∧ ClassName.read source = .ok name rest) ↔
      source = 'L' :: (text.toList ++ ';' :: rest) ∧ checkClassName text = .ok () := by
  simp only [ClassName.read_eq_ok_iff, ClassName.encode]
  constructor
  · rintro ⟨name, rfl, rfl⟩
    exact ⟨by simp, name.valid⟩
  · rintro ⟨rfl, hvalid⟩
    exact ⟨⟨text, hvalid⟩, rfl, by simp⟩

/-- Every reader takes exactly what is written off the front of a text, and accepts exactly what
is written as a whole text, except for values with an array whose dimensions cannot be counted.
Those are never found. -/
theorem descriptors_are_read_exactly_as_written (text : String)
    (htext : Addressable text.toList) :
    (∀ d rest, BaseType.read text.toList = .ok d rest ↔
      IsWritten BaseType.encode (fun _ => []) text.toList d rest) ∧
    (∀ d rest, ClassName.read text.toList = .ok d rest ↔
      IsWritten ClassName.encode (fun name => [name]) text.toList d rest) ∧
    (∀ d rest, RefType.read text.toList = .ok d rest ↔
      IsWritten RefType.encode RefType.classNames text.toList d rest ∧ d.Countable) ∧
    (∀ d rest, FieldType.read text.toList = .ok d rest ↔
      IsWritten FieldType.encode FieldType.classNames text.toList d rest ∧ d.Countable) ∧
    (∀ d rest, MethodDescriptor.read text.toList = .ok d rest ↔
      IsWritten MethodDescriptor.encode MethodDescriptor.classNames text.toList d rest ∧
        d.Countable) ∧
    (∀ inner rest,
      (∃ name : ClassName, name.text = inner ∧ ClassName.read text.toList = .ok name rest) ↔
        text.toList = 'L' :: (inner.toList ++ ';' :: rest) ∧ checkClassName inner = .ok ()) ∧
    (∀ d, BaseType.parse text = .ok d ↔ text = d.descriptor) ∧
    (∀ d, ClassName.parse text = .ok d ↔ text = d.descriptor) ∧
    (∀ d, RefType.parse text = .ok d ↔ text = d.descriptor ∧ d.Countable) ∧
    (∀ d, FieldType.parse text = .ok d ↔ text = d.descriptor ∧ d.Countable) ∧
    (∀ d, MethodDescriptor.parse text = .ok d ↔ text = d.descriptor ∧ d.Countable) := by
  refine ⟨?_, ?_, ?_, ?_, ?_, fun _ _ => ClassName.exists_read_iff, ?_, ?_, ?_, ?_, ?_⟩
  · exact read_iff_isWritten BaseType.read_eq_ok_iff _ _
  · exact read_iff_isWritten ClassName.read_eq_ok_iff _ _
  · exact read_iff_isWritten_and_countable RefType.encode_of_read RefType.read_encode _ htext
  · exact read_iff_isWritten_and_countable FieldType.encode_of_read FieldType.read_encode _ htext
  · exact read_iff_isWritten_and_countable MethodDescriptor.encode_of_read
      MethodDescriptor.read_encode _ htext
  · exact whole_eq_ok_iff_written BaseType.read_eq_ok_iff text
  · exact whole_eq_ok_iff_written ClassName.read_eq_ok_iff text
  · exact whole_eq_ok_iff_countable RefType.encode_of_read RefType.read_encode htext
  · exact whole_eq_ok_iff_countable FieldType.encode_of_read FieldType.read_encode htext
  · exact whole_eq_ok_iff_countable MethodDescriptor.encode_of_read MethodDescriptor.read_encode
      htext

/-- A class name may look like the end of the parameters. -/
theorem class_name_may_end_like_parameters :
    Addressable "([La)V;J)I".toList ∧ MethodDescriptor.parse "([La)V;J)I" =
      .ok ⟨[.ref (.objectArray 0 ⟨"a)V", rfl⟩), .base .long], some (.base .int)⟩ := by
  have htext : Addressable "([La)V;J)I".toList := by
    unfold Addressable
    decide
  obtain ⟨-, -, -, -, -, -, -, -, -, -, hmethod⟩ :=
    descriptors_are_read_exactly_as_written "([La)V;J)I" htext
  refine ⟨htext, (hmethod _).mpr ⟨by decide, ?_⟩⟩
  unfold MethodDescriptor.Countable
  simp [FieldType.Countable, RefType.Countable, ExtraDims.Countable]

/-- An array of `X` with the largest count of dimensions. -/
def uncountableArray : RefType := .objectArray (BitVec.allOnes 64) ⟨"X", rfl⟩

/-- An array with the largest count of dimensions is written like its element, and only the
element is read back. So the text is what is written for the array, and yet the array is not
what is found in it. -/
theorem uncountable_array_is_written_as_its_element :
    uncountableArray.dimensions = 0 ∧ uncountableArray.descriptor = "LX;" ∧
      RefType.parse "LX;" = .ok (.object ⟨"X", rfl⟩) ∧
      ¬ (RefType.parse "LX;" = .ok uncountableArray ↔ "LX;" = uncountableArray.descriptor) ∧
      ¬ (RefType.read "LX;".toList = .ok uncountableArray [] ↔
        IsWritten RefType.encode RefType.classNames "LX;".toList uncountableArray []) := by
  have hwritten : uncountableArray.descriptor = "LX;" := by decide
  have hparse : RefType.parse "LX;" = .ok (.object ⟨"X", rfl⟩) :=
    whole_written RefType.read_encode (d := .object ⟨"X", rfl⟩) trivial
  have hlost : RefType.parse "LX;" ≠ .ok uncountableArray := by
    rw [hparse]
    intro h
    cases h
  refine ⟨by decide, hwritten, hparse, ?_, ?_⟩
  · intro h
    exact hlost (h.mpr hwritten.symm)
  · intro h
    have hread := h.mpr ⟨by decide, fun name _ => name.valid⟩
    exact hlost (Reading.whole_eq_ok_iff.mpr hread)

end SymbolicFrames
