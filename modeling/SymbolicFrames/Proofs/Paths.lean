-- Paths through a method, followed with frames that may know more than those an analysis
-- records: an argument may be a literal. Main statement: along a path of any length, through
-- loops and handlers, every frame refines the one recorded at its point, as long as the path
-- keeps to what a verifier makes sure of beforehand.
import SymbolicFrames.Proofs.FixedPoint
import SymbolicFrames.Proofs.Refinement

namespace SymbolicFrames

/-! ## How frames refine each other -/

/-- All that the second frame says holds of the first, slot by slot. -/
def Frame.Refines (f g : Frame) : Prop := covering.Similar f g

theorem Value.Refines.absorbed {u v w : Value} (h : v.Refines w) (habsorbs : u.Absorbs w)
    (hwidth : v.width = u.width) : v.Refines u := by
  rcases absorbs_iff.mp habsorbs with rfl | rfl | ⟨rfl, -⟩
  · exact h
  · exact refines_top hwidth
  · exact refines_wideTop hwidth

/-- In the locals, joins need no such width. -/
theorem Value.InLocal.absorbed {u v w : Value} (h : v.InLocal w) (habsorbs : u.Absorbs w) :
    v.InLocal u := by
  rcases absorbs_iff.mp habsorbs with rfl | rfl | ⟨rfl, hwide⟩
  · exact h
  · exact Or.inr rfl
  · rcases h with h | rfl
    · exact Or.inl (refines_wideTop (h.width_eq.trans hwide))
    · cases hwide

theorem forall₂_inLocal_absorbed {us vs ws : List Value} (h : List.Forall₂ Value.InLocal vs ws)
    (habsorbs : List.Forall₂ Value.Absorbs us ws) : List.Forall₂ Value.InLocal vs us := by
  induction h generalizing us with
  | nil =>
    cases habsorbs
    exact .nil
  | cons hv _ ih =>
    cases habsorbs with
    | cons hu hus => exact .cons (hv.absorbed hu) (ih hus)

theorem forall₂_refines_absorbed {us vs ws : List Value} (h : List.Forall₂ Value.Refines vs ws)
    (habsorbs : List.Forall₂ Value.Absorbs us ws)
    (hwidths : vs.map Value.width = us.map Value.width) : List.Forall₂ Value.Refines vs us := by
  induction h generalizing us with
  | nil =>
    cases habsorbs
    exact .nil
  | cons hv _ ih =>
    cases habsorbs with
    | cons hu hus =>
      simp only [List.map_cons, List.cons.injEq] at hwidths
      exact .cons (hv.absorbed hu hwidths.1) (ih hus hwidths.2)

namespace Frame

variable {f g k : Frame}

/-- A frame that refines another refines what that was joined into, exactly if their stacks
are alike in width. -/
theorem Refines.absorbed_iff (h : f.Refines g) (habsorbs : k.Absorbs g)
    (hmax : k.maxStack = g.maxStack) :
    f.Refines k ↔ f.stack.map Value.width = k.stack.map Value.width := by
  constructor
  · intro hk
    exact Similarity.map_width_eq hk.stack
  · intro hwidths
    rw [absorbs_iff] at habsorbs
    exact ⟨forall₂_inLocal_absorbed h.locals habsorbs.1,
      forall₂_refines_absorbed h.stack habsorbs.2 hwidths, h.maxStack_eq.trans hmax.symm⟩

theorem Refines.handler (h : f.Refines g) (exception : Value) :
    (f.handler exception).Refines (g.handler exception) :=
  ⟨h.locals, .cons (Value.refines_self _) .nil, h.maxStack_eq⟩

theorem execute_load {kind : MoveKind} {slot : Slot}
    (h : f.execute (.load kind slot) = .ok g) :
    ∃ v, f.locals[slot]? = some v ∧ g.stack = v :: f.stack := by
  obtain ⟨v, hv, hpush⟩ := bind_eq_ok h
  unfold getLocal at hv
  unfold push at hpush
  split at hv
  · rename_i w hw
    cases hv
    split at hpush
    · cases hpush
    · cases hpush
      exact ⟨v, hw, rfl⟩
  · cases hv

end Frame

/-! ## Paths -/

/-- How far control has got: into which block, to which instruction of it or to its end, and
with what frame. -/
structure Point where
  block : BlockId
  index : Index
  frame : Frame

inductive Action where
  | execute (instruction : Instruction)
  | cross (edge : Edge)

namespace Problem

/-- One step of a path. -/
inductive Moves (problem : Problem) : Point → Action → Point → Prop
  /-- The next instruction of the block is executed. -/
  | execute {id : BlockId} {b : Block} {i : Index} {f g : Frame} {instruction : Instruction} :
      problem.graph.block? id = some b → b.Holds i →
      problem.method.instructions[i]? = some instruction → f.execute instruction = .ok g →
      Moves problem ⟨id, i, f⟩ (.execute instruction) ⟨id, i + 1, g⟩
  /-- At the end of the block, control goes on to a successor. -/
  | follow {id : BlockId} {b target : Block} {f : Frame} {edge : Edge} :
      problem.graph.block? id = some b → edge ∈ problem.graph.successors id →
      edge.kind = .normal → problem.graph.block? edge.target = some target →
      Moves problem ⟨id, b.stop, f⟩ (.cross edge) ⟨edge.target, target.start, f⟩
  /-- Before an instruction of the block or at its end, an exception is caught. -/
  | raise {id : BlockId} {b handler : Block} {i : Index} {f : Frame} {edge : Edge}
      {caught : Option ClassName} :
      problem.graph.block? id = some b → b.Holds i ∨ i = b.stop →
      edge ∈ problem.graph.successors id → edge.kind = .exception caught →
      problem.graph.block? edge.target = some handler →
      Moves problem ⟨id, i, f⟩ (.cross edge) ⟨edge.target, handler.start,
        f.handler (.object (caught.getD problem.settings.defaultException))⟩

/-- The frame is recorded at the point: before the instruction that is next, or after the
last one of the block. -/
def Recorded (problem : Problem) (frames : Frames) (x : Point) (f : Frame) : Prop :=
  ∃ b, problem.graph.block? x.block = some b ∧
    (b.Holds x.index ∧ frames.before? x.index = some f ∨
      x.index = b.stop ∧ frames.after? (b.stop - 1) = some f)

/-- A local that is loaded is as wide as the one recorded. -/
def LoadFits (problem : Problem) (frames : Frames) (x : Point) : Instruction → Prop
  | .load _ slot => ∀ f, problem.Recorded frames x f →
    x.frame.locals[slot]?.map Value.width = f.locals[slot]?.map Value.width
  | _ => True

/-- The values on the stack are as wide as those recorded, one by one. -/
def StackFits (problem : Problem) (frames : Frames) (x : Point) : Prop :=
  ∀ f, problem.Recorded frames x f → x.frame.stack.map Value.width = f.stack.map Value.width

/-- What a verifier makes sure of before it lets a step pass. -/
def Disciplined (problem : Problem) (frames : Frames) (x : Point) (action : Action)
    (y : Point) : Prop :=
  match action with
  | .execute instruction => problem.LoadFits frames x instruction
  | .cross _ => problem.StackFits frames y

/-- Steps one after the other, as many as there may be. -/
inductive Path (problem : Problem) (frames : Frames) : Point → Point → Prop
  | nil (x : Point) : Path problem frames x x
  | snoc {x y z : Point} {action : Action} :
      Path problem frames x y → problem.Moves y action z →
      problem.Disciplined frames y action z → Path problem frames x z

/-- A point where a path can begin: the first instruction, with a frame that refines the one
on entry to the method and has its widths, in the locals too. -/
structure Starts (problem : Problem) (x : Point) : Prop where
  block_eq : x.block = Graph.entry
  index_eq : ∃ b, problem.graph.block? Graph.entry = some b ∧ x.index = b.start
  frame : ∃ e, problem.method.entryFrame = .ok e ∧ x.frame.maxStack = e.maxStack ∧
    List.Forall₂ Value.Refines x.frame.locals e.locals ∧
    List.Forall₂ Value.Refines x.frame.stack e.stack

/-- The frame at the point refines the one recorded there. -/
structure Covered (problem : Problem) (frames : Frames) (x : Point) : Prop where
  reachable : problem.graph.Reachable x.block
  refines : ∃ f, problem.Recorded frames x f ∧ x.frame.Refines f

section Recorded

variable {problem : Problem} {frames : Frames} {x : Point} {f : Frame}

theorem recorded_unique {g : Frame} (hf : problem.Recorded frames x f)
    (hg : problem.Recorded frames x g) : f = g := by
  obtain ⟨b, hb, hf⟩ := hf
  obtain ⟨c, hc, hg⟩ := hg
  rw [hb, Option.some.injEq] at hc
  subst hc
  unfold Block.Holds at hf hg
  rcases hf with ⟨hi, hf⟩ | ⟨hi, hf⟩
  · rcases hg with ⟨-, hg⟩ | ⟨hi', -⟩
    · exact Option.some.inj (hf.symm.trans hg)
    · lia
  · rcases hg with ⟨hi', -⟩ | ⟨-, hg⟩
    · lia
    · exact Option.some.inj (hf.symm.trans hg)

theorem stackFits_iff (hf : problem.Recorded frames x f) :
    problem.StackFits frames x ↔ x.frame.stack.map Value.width = f.stack.map Value.width := by
  constructor
  · intro h
    exact h f hf
  · intro h g hg
    exact recorded_unique hf hg ▸ h

theorem loadsAlike_of_loadFits {instruction : Instruction} (hf : problem.Recorded frames x f)
    (hx : problem.LoadFits frames x instruction) :
    Similarity.LoadsAlike covering instruction x.frame f := by
  rintro kind slot rfl v w hv hw hvw
  have hwidth := hx f hf
  rw [hv, hw, Option.map_some, Option.map_some, Option.some.injEq] at hwidth
  exact Value.InLocal.refines hvw hwidth

theorem recorded_start {id : BlockId} {b : Block}
    (hvalid : problem.graph.Valid problem.method.instructions.length)
    (hb : problem.graph.block? id = some b) (hf : frames.before? b.start = some f) (g : Frame) :
    problem.Recorded frames ⟨id, b.start, g⟩ f :=
  ⟨b, hb, Or.inl ⟨⟨Nat.le_refl _, hvalid.nonempty hb⟩, hf⟩⟩

end Recorded

namespace Finished

variable {problem : Problem} {entry : Frame} {q : Progress} {x y : Point}

/-! ## Executing an instruction -/

/-- What is recorded after an instruction is recorded at the next point of its block. -/
theorem recorded_after (h : problem.Finished entry q) {id : BlockId} {b : Block} {i : Index}
    {f g : Frame} (hid : problem.graph.Reachable id) (hb : problem.graph.block? id = some b)
    (hi : b.Holds i) (hf : q.frames.after? i = some f) :
    problem.Recorded q.frames ⟨id, i + 1, g⟩ f := by
  refine ⟨b, hb, ?_⟩
  by_cases hi' : b.Holds (i + 1)
  · obtain ⟨f', hf', hbefore⟩ := h.consecutive hid hb hi hi'
    rw [hf, Option.some.injEq] at hf'
    exact Or.inl ⟨hi', hf' ▸ hbefore⟩
  · have hlast : i + 1 = b.stop := by
      unfold Block.Holds at hi hi'
      lia
    refine Or.inr ⟨hlast, ?_⟩
    rw [← hlast, Nat.add_sub_cancel]
    exact hf

/-- The recorded frame at a point with an instruction ahead is the one before it. -/
theorem executed_at (h : problem.Finished entry q) {b : Block} {f : Frame}
    (hb : problem.graph.block? x.block = some b) (hi : b.Holds x.index)
    (hf : problem.Recorded q.frames x f) :
    ∃ instruction g, problem.method.instructions[x.index]? = some instruction ∧
      f.execute instruction = .ok g ∧ q.frames.after? x.index = some g := by
  obtain ⟨c, hc, hf⟩ := hf
  rw [hb, Option.some.injEq] at hc
  subst hc
  rcases hf with ⟨-, hf⟩ | ⟨hend, -⟩
  · exact h.executed hf
  · unfold Block.Holds at hi
    lia

/-- The next instruction can be executed on a refined frame as on the recorded one, and the
frames after it are as those before it. -/
theorem execute_refines (h : problem.Finished entry q) {b : Block}
    (hx : problem.Covered q.frames x) (hb : problem.graph.block? x.block = some b)
    (hi : b.Holds x.index) :
    ∃ instruction f, problem.method.instructions[x.index]? = some instruction ∧
      q.frames.after? x.index = some f ∧
      (problem.LoadFits q.frames x instruction →
        ∃ g, x.frame.execute instruction = .ok g ∧ g.Refines f) := by
  obtain ⟨-, f, hf, hrefines⟩ := hx
  obtain ⟨instruction, f', hinstruction, hexec, hafter⟩ := h.executed_at hb hi hf
  refine ⟨instruction, f', hinstruction, hafter, ?_⟩
  intro hfits
  have hagree := Similarity.execute hrefines (loadsAlike_of_loadFits hf hfits)
  rw [hexec] at hagree
  generalize x.frame.execute instruction = result at hagree
  cases hagree with
  | @ok g _ hrefines' => exact ⟨g, rfl, hrefines'⟩

/-- A load that leads to a refined frame has found a local of the recorded width. -/
theorem loadFits_of_covered (h : problem.Finished entry q) {kind : MoveKind} {slot : Slot}
    (hmoves : problem.Moves x (.execute (.load kind slot)) y)
    (hx : problem.graph.Reachable x.block) (hy : problem.Covered q.frames y) :
    problem.LoadFits q.frames x (.load kind slot) := by
  intro f hf
  obtain ⟨hb, hi, hinstruction, hexec⟩ := hmoves
  obtain ⟨-, g', hg', hrefines⟩ := hy
  obtain ⟨instruction, g, hinstruction', hexec', hafter⟩ := h.executed_at hb hi hf
  rw [hinstruction, Option.some.injEq] at hinstruction'
  subst hinstruction'
  have := recorded_unique hg' (h.recorded_after hx hb hi hafter)
  subst this
  obtain ⟨v, hv, hstack⟩ := Frame.execute_load hexec
  obtain ⟨w, hw, hstack'⟩ := Frame.execute_load hexec'
  have hwidths := Similarity.map_width_eq hrefines.stack
  simp only [hstack, hstack', List.map_cons, List.cons.injEq] at hwidths
  simp only [hv, hw, Option.map_some, hwidths.1]

theorem covered_execute_iff (h : problem.Finished entry q) {instruction : Instruction}
    (hmoves : problem.Moves x (.execute instruction) y) (hx : problem.Covered q.frames x) :
    problem.Covered q.frames y ↔ problem.LoadFits q.frames x instruction := by
  constructor
  · intro hy
    cases instruction with
    | load kind slot => exact h.loadFits_of_covered hmoves hx.reachable hy
    | _ => trivial
  · intro hfits
    obtain ⟨hb, hi, hinstruction, hexec⟩ := hmoves
    obtain ⟨instruction', f, hinstruction', hafter, hnext⟩ := h.execute_refines hx hb hi
    rw [hinstruction, Option.some.injEq] at hinstruction'
    subst hinstruction'
    obtain ⟨g', hexec', hrefines⟩ := hnext hfits
    rw [hexec, Except.ok.injEq] at hexec'
    subst hexec'
    exact ⟨hx.reachable, f, h.recorded_after hx.reachable hb hi hafter, hrefines⟩

/-! ## Crossing an edge -/

theorem recorded_fits (h : problem.Finished entry q) {f : Frame}
    (hf : problem.Recorded q.frames x f) : f.Fits problem.method := by
  obtain ⟨b, -, ⟨-, hf⟩ | ⟨-, hf⟩⟩ := hf
  · obtain ⟨s, hs, rfl⟩ := Option.map_eq_some_iff.mp hf
    exact (h.step_fits hs).1
  · obtain ⟨s, hs, rfl⟩ := Option.map_eq_some_iff.mp hf
    exact (h.step_fits hs).2

theorem recorded_followed (h : problem.Finished entry q) {id : BlockId} {b target : Block}
    {edge : Edge} {f k : Frame} (hid : problem.graph.Reachable id)
    (hb : problem.graph.block? id = some b) (hedge : edge ∈ problem.graph.successors id)
    (hkind : edge.kind = .normal) (htarget : problem.graph.block? edge.target = some target)
    (hf : problem.Recorded q.frames ⟨id, b.stop, k⟩ f) :
    ∃ g, q.frames.before? target.start = some g ∧ g.Absorbs f := by
  obtain ⟨target', e, g, htarget', he, hg, habsorbs⟩ := h.followed hid hb hedge hkind
  rw [htarget, Option.some.injEq] at htarget'
  subst htarget'
  have hend : problem.Recorded q.frames ⟨id, b.stop, k⟩ e := ⟨b, hb, Or.inr ⟨rfl, he⟩⟩
  exact ⟨g, hg, recorded_unique hf hend ▸ habsorbs⟩

theorem recorded_handled (h : problem.Finished entry q) {id : BlockId} {b handler : Block}
    {i : Index} {edge : Edge} {caught : Option ClassName} {f k : Frame}
    (hid : problem.graph.Reachable id) (hb : problem.graph.block? id = some b)
    (hedge : edge ∈ problem.graph.successors id) (hkind : edge.kind = .exception caught)
    (hhandler : problem.graph.block? edge.target = some handler)
    (hf : problem.Recorded q.frames ⟨id, i, k⟩ f) :
    ∃ g, q.frames.before? handler.start = some g ∧
      g.Absorbs (f.handler (.object (caught.getD problem.settings.defaultException))) := by
  obtain ⟨handler', g, hhandler', hg, hbefore, e, he, hexit⟩ := h.handled hid hb hedge hkind
  rw [hhandler, Option.some.injEq] at hhandler'
  subst hhandler'
  refine ⟨g, hg, ?_⟩
  obtain ⟨c, hc, hf⟩ := hf
  rw [hb, Option.some.injEq] at hc
  subst hc
  rcases hf with ⟨hi, hf⟩ | ⟨-, hf⟩
  · obtain ⟨e', he', habsorbs⟩ := hbefore i hi
    rw [hf, Option.some.injEq] at he'
    exact he' ▸ habsorbs
  · rw [hf, Option.some.injEq] at he
    exact he ▸ hexit

/-- What crosses an edge refines a frame that was joined into the one recorded where it goes. -/
theorem crossed (h : problem.Finished entry q) {edge : Edge}
    (hmoves : problem.Moves x (.cross edge) y) (hx : problem.Covered q.frames x) :
    problem.graph.Reachable y.block ∧ ∃ f g, y.frame.Refines f ∧
      problem.Recorded q.frames y g ∧ g.Absorbs f ∧ g.maxStack = f.maxStack := by
  obtain ⟨hid, f, hf, hrefines⟩ := hx
  have hfits := h.recorded_fits hf
  cases hmoves with
  | @follow _ _ _ p _ hb hedge hkind htarget =>
    obtain ⟨g, hg, habsorbs⟩ := h.recorded_followed hid hb hedge hkind htarget hf
    have hrecorded := recorded_start h.valid htarget hg p
    refine ⟨.along hid hedge, f, g, hrefines, hrecorded, habsorbs, ?_⟩
    rw [(h.recorded_fits hrecorded).maxStack_eq, hfits.maxStack_eq]
  | @raise _ _ _ _ p _ caught hb _ hedge hkind hhandler =>
    obtain ⟨g, hg, habsorbs⟩ := h.recorded_handled hid hb hedge hkind hhandler hf
    have hrecorded := recorded_start h.valid hhandler hg
      (p.handler (.object (caught.getD problem.settings.defaultException)))
    refine ⟨.along hid hedge, _, g, hrefines.handler _, hrecorded, habsorbs, ?_⟩
    rw [(h.recorded_fits hrecorded).maxStack_eq, (hfits.handler _).maxStack_eq]

theorem covered_cross_iff (h : problem.Finished entry q) {edge : Edge}
    (hmoves : problem.Moves x (.cross edge) y) (hx : problem.Covered q.frames x) :
    problem.Covered q.frames y ↔ problem.StackFits q.frames y := by
  obtain ⟨hreachable, f, g, hrefines, hg, habsorbs, hmax⟩ := h.crossed hmoves hx
  rw [stackFits_iff hg, ← hrefines.absorbed_iff habsorbs hmax]
  constructor
  · rintro ⟨-, g', hg', hrefines'⟩
    exact recorded_unique hg' hg ▸ hrefines'
  · intro hrefines'
    exact ⟨hreachable, g, hg, hrefines'⟩

/-! ## Whole paths -/

/-- The discipline is all that it takes: a step from a covered point leads to a covered point
exactly if it keeps to it. -/
theorem covered_iff_disciplined (h : problem.Finished entry q) {action : Action}
    (hmoves : problem.Moves x action y) (hx : problem.Covered q.frames x) :
    problem.Covered q.frames y ↔ problem.Disciplined q.frames x action y := by
  cases action with
  | execute instruction => exact h.covered_execute_iff hmoves hx
  | cross edge => exact h.covered_cross_iff hmoves hx

theorem covered_start (h : problem.Finished entry q) (hx : problem.Starts x) :
    problem.Covered q.frames x := by
  obtain ⟨id, i, p⟩ := x
  obtain ⟨rfl, ⟨b, hb, rfl⟩, e, he, hmax, hlocals, hstack⟩ := hx
  rw [h.entry_eq, Except.ok.injEq] at he
  subst he
  obtain ⟨b', f, hb', hf, habsorbs⟩ := h.entered
  rw [hb, Option.some.injEq] at hb'
  subst hb'
  have hrecorded : problem.Recorded q.frames ⟨Graph.entry, b.start, p⟩ f :=
    recorded_start h.valid hb hf p
  have hentry : p.Refines entry := ⟨hlocals.imp fun _ _ => Or.inl, hstack, hmax⟩
  refine ⟨.entry, f, hrecorded, (hentry.absorbed_iff habsorbs ?_).mpr ?_⟩
  · rw [(h.recorded_fits hrecorded).maxStack_eq, (Frame.fits_entry h.entry_eq).maxStack_eq]
  · -- Nothing is on the stack yet, so there are no widths to compare.
    have hempty := Frame.stack_entry h.entry_eq
    rw [hempty, List.forall₂_nil_right_iff] at hstack
    have hstack' := (Frame.absorbs_iff.mp habsorbs).2
    rw [hempty, List.forall₂_nil_right_iff] at hstack'
    rw [hstack, hstack']

theorem covered_path (h : problem.Finished entry q) (hpath : problem.Path q.frames x y)
    (hx : problem.Covered q.frames x) : problem.Covered q.frames y := by
  induction hpath with
  | nil => exact hx
  | snoc _ hmoves hdisciplined ih =>
    exact (h.covered_iff_disciplined hmoves ih).mpr hdisciplined

end Finished

end Problem

/-- Along every path of an analyzed method, the frame refines the recorded one, and the next
instruction can be executed, whatever it is. -/
theorem recorded_frames_cover_every_path {settings : Settings} {method : Method} {graph : Graph}
    {frames : Frames} {x y : Point} (h : (analyze settings method graph).result = .ok frames)
    (hstart : Problem.Starts ⟨settings, method, graph⟩ x)
    (hpath : Problem.Path ⟨settings, method, graph⟩ frames x y) :
    (∃ f, Problem.Recorded ⟨settings, method, graph⟩ frames y f ∧ y.frame.Refines f) ∧
      ∀ b, graph.block? y.block = some b → b.Holds y.index →
        ∃ instruction f, method.instructions[y.index]? = some instruction ∧
          frames.after? y.index = some f ∧
          (Problem.LoadFits ⟨settings, method, graph⟩ frames y instruction →
            ∃ g, y.frame.execute instruction = .ok g ∧ g.Refines f) := by
  obtain ⟨entry, q, hfinished, rfl⟩ := Problem.finished_of_outcome (analyze_eq_ok_iff.mp h)
  have hcovered := hfinished.covered_path hpath (hfinished.covered_start hstart)
  refine ⟨hcovered.refines, ?_⟩
  intro b hb hi
  exact hfinished.execute_refines hcovered hb hi

/-! ## A path that an exception ends -/

abbrev countdownProblem : Problem := ⟨.default, countdown, countdownGraph⟩

def countdownStart : Point := ⟨0, 0, countdownFrame (.int (some 3)) .uninitialized []⟩

/-- The argument has come down by one and has been loaded when the exception is caught. -/
def countdownCaught : Point :=
  ⟨2, 5, countdownFrame (.int (some 2)) .null [.object .throwable]⟩

theorem starts_countdown : countdownProblem.Starts countdownStart := by
  refine ⟨rfl, ⟨⟨0, 2⟩, rfl, rfl⟩, countdownFrame (.int none) .uninitialized [],
    by decide +kernel, rfl, ?_, .nil⟩
  exact .cons (Value.int_refines _) (.cons (Value.refines_self _) .nil)

theorem path_countdown :
    countdownProblem.Path countdownFrames countdownStart countdownCaught := by
  have hpush : countdownProblem.Path countdownFrames countdownStart
      ⟨0, 1, countdownFrame (.int (some 3)) .uninitialized [.null]⟩ :=
    .snoc (.nil _) (.execute (b := ⟨0, 2⟩) rfl ⟨by decide, by decide⟩ rfl rfl) trivial
  have hstore : countdownProblem.Path countdownFrames countdownStart
      ⟨0, 2, countdownFrame (.int (some 3)) .null []⟩ :=
    .snoc hpush (.execute (b := ⟨0, 2⟩) rfl ⟨by decide, by decide⟩ rfl rfl) trivial
  have hfollow : countdownProblem.Path countdownFrames countdownStart
      ⟨1, 2, countdownFrame (.int (some 3)) .null []⟩ := by
    have hrecorded : countdownProblem.Recorded countdownFrames
        ⟨1, 2, countdownFrame (.int (some 3)) .null []⟩ (countdownFrame (.int none) .null []) :=
      ⟨⟨2, 5⟩, rfl, Or.inl ⟨⟨by decide, by decide⟩, rfl⟩⟩
    exact .snoc hstore (@Problem.Moves.follow _ 0 ⟨0, 2⟩ ⟨2, 5⟩ _ ⟨1, .normal⟩ rfl
      List.mem_cons_self rfl rfl) ((Problem.stackFits_iff hrecorded).mpr rfl)
  have hincrement : countdownProblem.Path countdownFrames countdownStart
      ⟨1, 3, countdownFrame (.int (some 2)) .null []⟩ :=
    .snoc hfollow (.execute (b := ⟨2, 5⟩) rfl ⟨by decide, by decide⟩ rfl rfl) trivial
  have hload : countdownProblem.Path countdownFrames countdownStart
      ⟨1, 4, countdownFrame (.int (some 2)) .null [.int (some 2)]⟩ := by
    refine .snoc hincrement (.execute (b := ⟨2, 5⟩) rfl ⟨by decide, by decide⟩ rfl rfl) ?_
    intro f hf
    have hrecorded : countdownProblem.Recorded countdownFrames
        ⟨1, 3, countdownFrame (.int (some 2)) .null []⟩ (countdownFrame (.int none) .null []) :=
      ⟨⟨2, 5⟩, rfl, Or.inl ⟨⟨by decide, by decide⟩, rfl⟩⟩
    rw [Problem.recorded_unique hf hrecorded]
    rfl
  have hrecorded : countdownProblem.Recorded countdownFrames countdownCaught
      (countdownFrame (.int none) .null [.object .throwable]) :=
    ⟨⟨5, 6⟩, rfl, Or.inl ⟨⟨by decide, by decide⟩, rfl⟩⟩
  exact .snoc hload (@Problem.Moves.raise _ 1 ⟨2, 5⟩ ⟨5, 6⟩ 4 _ ⟨2, .exception none⟩ none rfl
    (Or.inl ⟨by decide, by decide⟩) (by decide) rfl rfl)
    ((Problem.stackFits_iff hrecorded).mpr rfl)

theorem countdown_frames_cover_a_caught_exception :
    (analyze .default countdown countdownGraph).result = .ok countdownFrames ∧
      countdownProblem.Starts countdownStart ∧
      countdownProblem.Path countdownFrames countdownStart countdownCaught ∧
      ∃ f, countdownProblem.Recorded countdownFrames countdownCaught f ∧
        countdownCaught.frame.Refines f :=
  ⟨analyze_countdown, starts_countdown, path_countdown,
    (recorded_frames_cover_every_path analyze_countdown starts_countdown path_countdown).1⟩

end SymbolicFrames
