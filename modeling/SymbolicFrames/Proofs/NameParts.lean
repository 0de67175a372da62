-- Names of classes and names of members are checked apart, each by a rule of its own about the
-- characters that are forbidden. Main statement: the two rules agree. A class name is a row of
-- member names with slashes between them, none of them that of a special method, and it is one
-- such row only. What this asks of the text is also said without cutting it into parts.
import SymbolicFrames.Proofs.DescriptorTexts

namespace SymbolicFrames

/-! ## Cutting at the slashes -/

theorem segments_eq_splitOn (text : List Char) : segments text = text.splitOn '/' := by
  induction text with
  | nil => rfl
  | cons c rest ih =>
    rw [segments, List.splitOn_cons_eq_if_modifyHead, ih]
    by_cases hc : c = '/'
    · simp [hc]
    · rw [if_neg hc, if_neg (by simpa using hc)]
      cases hrest : List.splitOn '/' rest with
      | nil => exact absurd hrest (List.splitOn_ne_nil '/' rest)
      | cons first others => rfl

theorem segments_append_slash (before after : List Char) :
    segments (before ++ '/' :: after) = segments before ++ segments after := by
  simp only [segments_eq_splitOn, List.splitOn_append_cons_self]

/-- The segments of a text, as texts of their own. -/
def partsOf (text : String) : List String :=
  (segments text.toList).map String.ofList

theorem partsOf_ne_nil (text : String) : partsOf text ≠ [] := by
  rw [partsOf, segments_eq_splitOn]
  simp

theorem mem_partsOf_iff {part text : String} :
    part ∈ partsOf text ↔ part.toList ∈ segments text.toList := by
  rw [partsOf, List.mem_map]
  constructor
  · rintro ⟨segment, hsegment, rfl⟩
    rwa [String.toList_ofList]
  · intro hsegment
    exact ⟨part.toList, hsegment, String.ofList_toList⟩

theorem intercalate_partsOf (text : String) : "/".intercalate (partsOf text) = text := by
  apply String.toList_inj.mp
  have hsame : (partsOf text).map String.toList = segments text.toList := by
    simp [partsOf, Function.comp_def]
  rw [String.toList_intercalate, hsame, segments_eq_splitOn]
  exact List.intercalate_splitOn '/'

/-- Slashes inside the parts would be taken for slashes between them. -/
theorem partsOf_intercalate {parts : List String} (hne : parts ≠ [])
    (hslash : ∀ part ∈ parts, '/' ∉ part.toList) : partsOf ("/".intercalate parts) = parts := by
  have hcut : List.splitOn '/' (['/'].intercalate (parts.map String.toList))
      = parts.map String.toList := by
    apply List.splitOn_intercalate
    · simpa using hslash
    · simpa using hne
  have htext : ("/".intercalate parts).toList = ['/'].intercalate (parts.map String.toList) :=
    String.toList_intercalate
  rw [partsOf, segments_eq_splitOn, htext, hcut]
  simp [Function.comp_def]

/-! ## Empty parts -/

/-- No slash stands at the start, at the end or right after another one. -/
structure SlashesApart (text : String) : Prop where
  not_first : ¬ ['/'] <+: text.toList
  not_last : ¬ ['/'] <:+ text.toList
  not_doubled : ¬ ['/', '/'] <:+: text.toList

theorem slashesApart_of_parts {text : String} (hparts : "" ∉ partsOf text) :
    SlashesApart text := by
  have hsegments : [] ∉ segments text.toList := fun hempty => hparts (mem_partsOf_iff.mpr hempty)
  refine ⟨?_, ?_, ?_⟩
  · rintro ⟨after, htext⟩
    rw [← htext] at hsegments
    exact hsegments List.mem_cons_self
  · rintro ⟨before, htext⟩
    rw [← htext, segments_append_slash] at hsegments
    exact hsegments (List.mem_append_right _ (List.mem_singleton_self []))
  · rintro ⟨before, after, htext⟩
    rw [← htext, List.append_assoc, List.cons_append, segments_append_slash] at hsegments
    exact hsegments (List.mem_append_right _ List.mem_cons_self)

theorem empty_not_mem_partsOf {text : String} (hne : text ≠ "") (hapart : SlashesApart text) :
    "" ∉ partsOf text := by
  intro hparts
  obtain ⟨before, after, hsplit⟩ := List.append_of_mem hparts
  have htext := intercalate_partsOf text
  rw [hsplit] at htext
  -- The empty part is the whole text, the first of several, the last of several or between two.
  by_cases hbefore : before = []
  · by_cases hafter : after = []
    · rw [hbefore, hafter] at htext
      exact hne htext.symm
    · rw [hbefore, List.nil_append, String.intercalate_cons_of_ne_nil hafter] at htext
      apply hapart.not_first
      rw [← htext]
      exact ⟨("/".intercalate after).toList, by simp⟩
  · rw [String.intercalate_append_of_ne_nil hbefore (List.cons_ne_nil _ _)] at htext
    by_cases hafter : after = []
    · rw [hafter, String.intercalate_singleton] at htext
      apply hapart.not_last
      rw [← htext]
      exact ⟨("/".intercalate before).toList, by simp⟩
    · rw [String.intercalate_cons_of_ne_nil hafter] at htext
      apply hapart.not_doubled
      rw [← htext]
      exact ⟨("/".intercalate before).toList, ("/".intercalate after).toList, by simp⟩

/-! ## The two checks -/

/-- The name of a member other than the two special methods. -/
structure IsOrdinary (text : String) : Prop where
  valid : checkMemberName text = .ok ()
  not_constructor : text ≠ "<init>"
  not_initializer : text ≠ "<clinit>"

/-- The parts, ordinary names of members and at least one of them, make up the text with slashes
between them. -/
structure Spells (parts : List String) (text : String) : Prop where
  nonempty : parts ≠ []
  ordinary : ∀ part ∈ parts, IsOrdinary part
  joined : "/".intercalate parts = text

theorem checkMemberName_eq_ok_iff {text : String} :
    checkMemberName text = .ok () ↔
      text.toList ≠ [] ∧ (∀ c ∈ text.toList, isReserved c = false ∧ c ≠ '/') ∧
        ((∀ c ∈ text.toList, isAngleBracket c = false) ∨ text = "<init>" ∨ text = "<clinit>") := by
  unfold checkMemberName
  split
  · rename_i hempty
    simp [List.isEmpty_iff.mp hempty]
  · rename_i hempty
    rw [List.isEmpty_iff] at hempty
    split
    · rename_i hillegal
      obtain ⟨c, hc, hbad⟩ := List.any_eq_true.mp hillegal
      grind
    · rename_i hlegal
      split
      · rename_i hangle
        grind
      · rename_i hplain
        grind

/-- An ordinary name is what may stand between two slashes of a class name. -/
theorem isOrdinary_iff {text : String} :
    IsOrdinary text ↔ isSegment text.toList = true ∧ '/' ∉ text.toList := by
  rw [isSegment_iff]
  constructor
  · rintro ⟨hvalid, hconstructor, hinitializer⟩
    obtain ⟨hne, hfree, hangle | rfl | rfl⟩ := checkMemberName_eq_ok_iff.mp hvalid
    · refine ⟨⟨hne, fun c hc => ⟨(hfree c hc).1, hangle c hc⟩⟩, fun hslash => ?_⟩
      exact (hfree '/' hslash).2 rfl
    · exact absurd rfl hconstructor
    · exact absurd rfl hinitializer
  · rintro ⟨⟨hne, hfree⟩, hslash⟩
    -- Both special methods start with an angle bracket.
    have hangle : '<' ∉ text.toList := fun hc => absurd (hfree '<' hc).2 (by decide)
    refine ⟨checkMemberName_eq_ok_iff.mpr ⟨hne, ?_, Or.inl ?_⟩, ?_, ?_⟩
    · intro c hc
      refine ⟨(hfree c hc).1, ?_⟩
      rintro rfl
      exact hslash hc
    · exact fun c hc => (hfree c hc).2
    · rintro rfl
      exact hangle (by decide)
    · rintro rfl
      exact hangle (by decide)

theorem checkClassName_eq_ok_iff_ordinary {text : String} :
    checkClassName text = .ok () ↔ ∀ part ∈ partsOf text, IsOrdinary part := by
  rw [checkClassName_eq_ok_iff]
  constructor
  · rintro ⟨-, hsegments⟩ part hpart
    rw [mem_partsOf_iff] at hpart
    refine isOrdinary_iff.mpr ⟨hsegments _ hpart, fun hslash => ?_⟩
    exact (exists_segment_iff.mp ⟨_, hpart, hslash⟩).2 rfl
  · intro hordinary
    constructor
    · intro hempty
      have hpart : "" ∈ partsOf text := by
        rw [mem_partsOf_iff, hempty]
        decide
      exact absurd (isOrdinary_iff.mp (hordinary "" hpart)).1 (by decide)
    · intro segment hsegment
      have hpart : String.ofList segment ∈ partsOf text := List.mem_map_of_mem hsegment
      simpa using (isOrdinary_iff.mp (hordinary _ hpart)).1

/-- A class name is spelled by its segments and by nothing else. -/
theorem spells_iff {parts : List String} {text : String} :
    Spells parts text ↔ checkClassName text = .ok () ∧ parts = partsOf text := by
  rw [checkClassName_eq_ok_iff_ordinary]
  constructor
  · rintro ⟨hne, hordinary, rfl⟩
    have hparts : partsOf ("/".intercalate parts) = parts :=
      partsOf_intercalate hne fun part hpart => (isOrdinary_iff.mp (hordinary part hpart)).2
    rw [hparts]
    exact ⟨hordinary, rfl⟩
  · rintro ⟨hordinary, rfl⟩
    exact ⟨partsOf_ne_nil text, hordinary, intercalate_partsOf text⟩

/-- The check of a class name, without a cut. -/
theorem checkClassName_eq_ok_iff_apart {text : String} :
    checkClassName text = .ok () ↔
      text ≠ "" ∧ (∀ c ∈ text.toList, c ∉ ['.', ';', '[', '<', '>']) ∧ SlashesApart text := by
  have hfree (c : Char) :
      isReserved c = false ∧ isAngleBracket c = false ↔ c ∉ ['.', ';', '[', '<', '>'] := by
    simp [isReserved, isAngleBracket, and_assoc]
  simp only [checkClassName_eq_ok_iff, isSegment_iff, hfree]
  constructor
  · rintro ⟨hne, hsegments⟩
    refine ⟨by simpa using hne, fun c hc => ?_, slashesApart_of_parts fun hempty => ?_⟩
    · by_cases hslash : c = '/'
      · subst hslash
        decide
      · obtain ⟨part, hpart, hmem⟩ := exists_segment_iff.mpr ⟨hc, hslash⟩
        exact (hsegments part hpart).2 c hmem
    · exact (hsegments _ (mem_partsOf_iff.mp hempty)).1 rfl
  · rintro ⟨hne, hfree, hapart⟩
    refine ⟨by simpa using hne, fun part hpart => ⟨?_, fun c hc => ?_⟩⟩
    · rintro rfl
      exact empty_not_mem_partsOf hne hapart (mem_partsOf_iff.mpr hpart)
    · exact hfree c (exists_segment_iff.mp ⟨part, hpart, hc⟩).1

theorem ClassName.exists_ofString_iff {text : String} :
    (∃ name, ClassName.ofString text = .ok name) ↔ checkClassName text = .ok () := by
  simp only [ClassName.ofString_eq_ok_iff]
  constructor
  · rintro ⟨name, rfl⟩
    exact name.valid
  · intro hvalid
    exact ⟨⟨text, hvalid⟩, rfl⟩

/-- A text is accepted as a class name exactly if ordinary names of members spell it, they do so
in one way only, and the name keeps the text. Said of its characters, the text is not empty, none
of them is reserved or an angle bracket, and no slash is first, last or next to another. -/
theorem class_names_are_spelled_by_member_names (text : String) :
    ((∃ name, ClassName.ofString text = .ok name) ↔ ∃ parts, Spells parts text) ∧
    (∀ parts others, Spells parts text → Spells others text → parts = others) ∧
    (∀ name, ClassName.ofString text = .ok name → name.text = text) ∧
    ((∃ name, ClassName.ofString text = .ok name) ↔
      text ≠ "" ∧ (∀ c ∈ text.toList, c ∉ ['.', ';', '[', '<', '>']) ∧ SlashesApart text) := by
  refine ⟨?_, ?_, ?_, ?_⟩
  · rw [ClassName.exists_ofString_iff]
    constructor
    · intro hvalid
      exact ⟨partsOf text, spells_iff.mpr ⟨hvalid, rfl⟩⟩
    · rintro ⟨parts, hparts⟩
      exact (spells_iff.mp hparts).1
  · intro parts others hparts hothers
    exact (spells_iff.mp hparts).2.trans (spells_iff.mp hothers).2.symm
  · intro name hname
    exact ClassName.ofString_eq_ok_iff.mp hname
  · rw [ClassName.exists_ofString_iff, checkClassName_eq_ok_iff_apart]

/-- A dollar sign divides nothing: a nested class is one part with the class around it. -/
theorem map_entry_is_spelled_in_one_way :
    Spells ["java", "util", "Map$Entry"] "java/util/Map$Entry" ∧
      (∃ name, ClassName.ofString "java/util/Map$Entry" = .ok name ∧
        name.text = "java/util/Map$Entry") ∧
      (∀ parts, Spells parts "java/util/Map$Entry" → parts = ["java", "util", "Map$Entry"]) ∧
      SlashesApart "java/util/Map$Entry" := by
  obtain ⟨haccepted, hunique, hkept, hcharacters⟩ :=
    class_names_are_spelled_by_member_names "java/util/Map$Entry"
  have hspells : Spells ["java", "util", "Map$Entry"] "java/util/Map$Entry" :=
    spells_iff.mpr ⟨rfl, by decide⟩
  obtain ⟨name, hname⟩ := haccepted.mpr ⟨_, hspells⟩
  obtain ⟨-, -, hapart⟩ := hcharacters.mp ⟨name, hname⟩
  exact ⟨hspells, ⟨name, hname, hkept name hname⟩,
    fun parts hparts => hunique parts _ hparts hspells, hapart⟩

-- A special method has the name of a member, which is no part of a class name.
example :
    checkMemberName "<clinit>" = .ok () ∧
      checkClassName "a/<clinit>" = .error (.invalidSegment "a/<clinit>") := by
  exact ⟨rfl, rfl⟩

end SymbolicFrames
