import Declarations.Proofs.Judgement

/-!
# Walks, by the way they go

A walk is described by a relation between the resolution before it, its progress and the resolution
after it. `VisitsAll` and `VisitsStages` say how the visits of several nodes are put together, and
`Walks.induction` is the induction that every later statement about walks goes by: it has one case
for each way in which the walk of a single node can go.
-/

namespace Declarations

@[simp] theorem Progress.and_eq_done {first others : Progress} :
    first.and others = .done ↔ first = .done ∧ others = .done := by
  cases first <;> cases others <;> simp [Progress.and]

namespace Resolution

/-- What a visit makes of a resolution, and the progress it reports. -/
abbrev Visit := Resolution → Progress → Resolution → Prop

/-- Nodes are visited one after another, also after one that stays open. -/
inductive VisitsAll (visits : NodeId → Visit) : List NodeId → Visit
  | nil {start : Resolution} : VisitsAll visits [] start .done start
  | cons {id : NodeId} {rest : List NodeId} {start middle final : Resolution}
      {first others : Progress} (head : visits id start first middle)
      (tail : VisitsAll visits rest middle others final) :
      VisitsAll visits (id :: rest) start (first.and others) final

/-- Stages are visited one after another, up to one that stays open. -/
inductive VisitsStages (visits : NodeId → Visit) : List (List NodeId) → Visit
  | nil {start : Resolution} : VisitsStages visits [] start .done start
  | done {stage : List NodeId} {rest : List (List NodeId)} {start middle final : Resolution}
      {progress : Progress} (head : VisitsAll visits stage start .done middle)
      (tail : VisitsStages visits rest middle progress final) :
      VisitsStages visits (stage :: rest) start progress final
  | pending {stage : List NodeId} {rest : List (List NodeId)} {start final : Resolution}
      (head : VisitsAll visits stage start .pending final) :
      VisitsStages visits (stage :: rest) start .pending final

/-- The resolution with another budget and another number of passes. -/
def recount (resolution : Resolution) (budget : Budget) (passes : Nat) : Resolution :=
  { resolution with budget := budget, passes := passes }

/-- The walk of a node in so many levels, as a relation. -/
def Walks (levels : Nat) (path : Path) (id : NodeId) : Visit := fun start progress final =>
  resolveWithin levels path id start = some (progress, final)

namespace VisitsAll

variable {visits others : NodeId → Visit} {ids more : List NodeId} {start middle final : Resolution}
  {progress : Progress}

theorem imp (implies : ∀ id ∈ ids, ∀ start progress final,
      visits id start progress final → others id start progress final)
    (visited : VisitsAll visits ids start progress final) :
    VisitsAll others ids start progress final := by
  induction visited with
  | nil => exact .nil
  | cons head _ ih =>
    refine .cons (implies _ List.mem_cons_self _ _ _ head) (ih ?_)
    intro id member
    exact implies id (List.mem_cons_of_mem _ member)

/-- What every visit keeps, the visits of a list keep. -/
theorem invariant (Inv : Resolution → Prop)
    (keeps : ∀ id ∈ ids, ∀ start progress final,
      visits id start progress final → Inv start → Inv final)
    (visited : VisitsAll visits ids start progress final) (holds : Inv start) : Inv final := by
  induction visited with
  | nil => exact holds
  | cons head _ ih =>
    apply ih
    · intro id member
      exact keeps id (List.mem_cons_of_mem _ member)
    · exact keeps _ List.mem_cons_self _ _ _ head holds

theorem append_and {first second : Progress} (head : VisitsAll visits ids start first middle)
    (tail : VisitsAll visits more middle second final) :
    VisitsAll visits (ids ++ more) start (first.and second) final := by
  induction head with
  | nil => exact tail
  | @cons id rest start middle final own others visit _ ih =>
    have regroup : (own.and others).and second = own.and (others.and second) := by
      cases own <;> rfl
    rw [regroup]
    exact .cons visit (ih tail)

theorem append (first : VisitsAll visits ids start .done middle)
    (second : VisitsAll visits more middle progress final) :
    VisitsAll visits (ids ++ more) start progress final :=
  first.append_and second

/-- The visits of two lists are those of the first, then those of the second. -/
theorem exists_append (visited : VisitsAll visits (ids ++ more) start progress final) :
    ∃ first middle second, VisitsAll visits ids start first middle ∧
      VisitsAll visits more middle second final ∧ progress = first.and second := by
  induction ids generalizing start progress with
  | nil => exact ⟨.done, start, progress, .nil, visited, rfl⟩
  | cons id rest ih =>
    cases visited with
    | @cons _ _ _ middle _ own others head tail =>
      obtain ⟨first, reached, second, headRest, tailRest, split⟩ := ih tail
      refine ⟨own.and first, reached, second, .cons head headRest, tailRest, ?_⟩
      rw [split]
      cases own <;> rfl

/-- What every visit relates, their sequence relates. -/
theorem relates (R : Resolution → Resolution → Prop) (refl : ∀ only, R only only)
    (trans : ∀ {first second third}, R first second → R second third → R first third)
    (step : ∀ id ∈ ids, ∀ start progress final, visits id start progress final → R start final)
    (visited : VisitsAll visits ids start progress final) : R start final :=
  visited.invariant (R start)
    (fun id member _ _ _ visit before => trans before (step id member _ _ _ visit)) (refl start)

/-- Every visit of a sequence lies between its start and its end. -/
theorem between (R : Resolution → Resolution → Prop) (refl : ∀ only, R only only)
    (trans : ∀ {first second third}, R first second → R second third → R first third)
    (step : ∀ id ∈ ids, ∀ start progress final, visits id start progress final → R start final)
    (visited : VisitsAll visits ids start progress final) :
    VisitsAll (fun id before own after =>
      visits id before own after ∧ R start before ∧ R after final) ids start progress final := by
  induction visited with
  | nil => exact .nil
  | @cons head rest start middle final first others visit tail ih =>
    have stepRest := fun id inRest => step id (List.mem_cons_of_mem head inRest)
    have toMiddle := step head List.mem_cons_self _ _ _ visit
    refine .cons ⟨visit, refl start, tail.relates R refl trans stepRest⟩ ((ih stepRest).imp ?_)
    intro id _ before own after ⟨own, fromMiddle, toFinal⟩
    exact ⟨own, trans toMiddle fromMiddle, toFinal⟩

theorem advances (step : ∀ id ∈ ids, ∀ start progress final,
      visits id start progress final → start.Advances final)
    (visited : VisitsAll visits ids start progress final) : start.Advances final :=
  visited.relates Advances .refl .trans step

/-- A change of view on the resolution that all visits allow, their sequence allows. -/
theorem map (view : Resolution → Resolution)
    (visited : VisitsAll (fun id start progress final =>
      visits id (view start) progress (view final)) ids start progress final) :
    VisitsAll visits ids (view start) progress (view final) := by
  induction visited with
  | nil => exact .nil
  | cons head _ ih => exact .cons head ih

/-- A list that is done is done at every node. -/
theorem allDone (visited : VisitsAll visits ids start progress final) (isDone : progress = .done) :
    VisitsAll (fun id before own after => visits id before own after ∧ own = .done)
      ids start progress final := by
  induction visited with
  | nil => exact .nil
  | cons head _ ih =>
    obtain ⟨headDone, tailDone⟩ := Progress.and_eq_done.mp isDone
    exact .cons ⟨head, headDone⟩ (ih tailDone)

/-- Every node of the list has its own visit. -/
theorem exists_visit (visited : VisitsAll visits ids start progress final) {id : NodeId}
    (member : id ∈ ids) : ∃ before own after, visits id before own after := by
  induction visited with
  | nil => cases member
  | @cons head rest start middle final first others visit tail ih =>
    rcases List.mem_cons.mp member with same | inRest
    · subst same
      exact ⟨start, first, middle, visit⟩
    · exact ih inRest

/-- A list stays open only by one of its nodes. -/
theorem exists_pending (visited : VisitsAll visits ids start .pending final) :
    ∃ id ∈ ids, ∃ before after, visits id before .pending after := by
  generalize isPending : Progress.pending = reached at visited
  induction visited with
  | nil => cases isPending
  | @cons head rest start middle final first others visit tail ih =>
    cases first with
    | pending => exact ⟨head, List.mem_cons_self, start, middle, visit⟩
    | done =>
      obtain ⟨id, member, before, after, pending⟩ := ih isPending
      exact ⟨id, List.mem_cons_of_mem _ member, before, after, pending⟩

end VisitsAll

namespace VisitsStages

variable {visits others : NodeId → Visit} {stages : List (List NodeId)} {start final : Resolution}
  {progress : Progress}

theorem imp (implies : ∀ id ∈ stages.flatten, ∀ start progress final,
      visits id start progress final → others id start progress final)
    (visited : VisitsStages visits stages start progress final) :
    VisitsStages others stages start progress final := by
  induction visited with
  | nil => exact .nil
  | done head _ ih =>
    rw [List.flatten_cons] at implies
    refine .done (head.imp ?_) (ih ?_)
    · intro id member
      exact implies id (List.mem_append_left _ member)
    · intro id member
      exact implies id (List.mem_append_right _ member)
  | pending head =>
    rw [List.flatten_cons] at implies
    refine .pending (head.imp ?_)
    intro id member
    exact implies id (List.mem_append_left _ member)

theorem relates (R : Resolution → Resolution → Prop) (refl : ∀ only, R only only)
    (trans : ∀ {first second third}, R first second → R second third → R first third)
    (step : ∀ id ∈ stages.flatten, ∀ start progress final,
      visits id start progress final → R start final)
    (visited : VisitsStages visits stages start progress final) : R start final := by
  induction visited with
  | nil => exact refl _
  | done head _ ih =>
    rw [List.flatten_cons] at step
    have first := head.relates R refl trans fun id member => step id (List.mem_append_left _ member)
    exact trans first (ih fun id member => step id (List.mem_append_right _ member))
  | pending head =>
    rw [List.flatten_cons] at step
    exact head.relates R refl trans fun id member => step id (List.mem_append_left _ member)

theorem between (R : Resolution → Resolution → Prop) (refl : ∀ only, R only only)
    (trans : ∀ {first second third}, R first second → R second third → R first third)
    (step : ∀ id ∈ stages.flatten, ∀ start progress final,
      visits id start progress final → R start final)
    (visited : VisitsStages visits stages start progress final) :
    VisitsStages (fun id before own after =>
      visits id before own after ∧ R start before ∧ R after final) stages start progress final := by
  induction visited with
  | nil => exact .nil
  | @done stage rest start middle final progress head tail ih =>
    rw [List.flatten_cons] at step
    have stepStage := fun id member => step id (List.mem_append_left _ member)
    have stepRest := fun id member => step id (List.mem_append_right stage member)
    have toMiddle := head.relates R refl trans stepStage
    have toFinal := tail.relates R refl trans stepRest
    refine .done ((head.between R refl trans stepStage).imp ?_) ((ih stepRest).imp ?_)
    · intro id _ before own after ⟨visit, fromStart, toEnd⟩
      exact ⟨visit, fromStart, trans toEnd toFinal⟩
    · intro id _ before own after ⟨visit, fromMiddle, toEnd⟩
      exact ⟨visit, trans toMiddle fromMiddle, toEnd⟩
  | @pending stage rest start final head =>
    rw [List.flatten_cons] at step
    exact .pending (head.between R refl trans fun id member =>
      step id (List.mem_append_left _ member))

theorem advances (step : ∀ id ∈ stages.flatten, ∀ start progress final,
      visits id start progress final → start.Advances final)
    (visited : VisitsStages visits stages start progress final) : start.Advances final :=
  visited.relates Advances .refl .trans step

theorem map (view : Resolution → Resolution)
    (visited : VisitsStages (fun id start progress final =>
      visits id (view start) progress (view final)) stages start progress final) :
    VisitsStages visits stages (view start) progress (view final) := by
  induction visited with
  | nil => exact .nil
  | done head _ ih => exact .done (head.map view) ih
  | pending head => exact .pending (head.map view)

/-- Stages that are all done are the list of all their nodes, done. -/
theorem flatten (visited : VisitsStages visits stages start .done final) :
    VisitsAll visits stages.flatten start .done final := by
  generalize isDone : Progress.done = reached at visited
  induction visited with
  | nil =>
    rw [List.flatten_nil]
    exact .nil
  | done head _ ih =>
    rw [List.flatten_cons]
    exact head.append (ih isDone)
  | pending => cases isDone

/-- Stages stay open by the first that does, and the stages before it are done. -/
theorem exists_pending (visited : VisitsStages visits stages start .pending final) :
    ∃ before stage after middle, stages = before ++ stage :: after ∧
      VisitsAll visits before.flatten start .done middle ∧
      VisitsAll visits stage middle .pending final := by
  generalize isPending : Progress.pending = reached at visited
  induction visited with
  | nil => cases isPending
  | @done stage rest start middle final progress head _ ih =>
    subst isPending
    obtain ⟨before, own, after, reached, split, allDone, pending⟩ := ih rfl
    refine ⟨stage :: before, own, after, reached, ?_, ?_, pending⟩
    · rw [split, List.cons_append]
    · rw [List.flatten_cons]
      exact head.append allDone
  | @pending stage rest start final head =>
    exact ⟨[], stage, rest, start, rfl, .nil, isPending ▸ head⟩

/-- A stage is visited when all visits in the stages before it are done. -/
theorem exists_visit {before after : List (List NodeId)} {stage : List NodeId}
    (visited : VisitsStages visits (before ++ stage :: after) start progress final)
    (allDone : ∀ id ∈ before.flatten, ∀ start progress final,
      visits id start progress final → progress = .done) {id : NodeId} (member : id ∈ stage) :
    ∃ start progress final, visits id start progress final := by
  induction before generalizing start with
  | nil =>
    cases visited with
    | done head _ => exact head.exists_visit member
    | pending head => exact head.exists_visit member
  | cons first rest ih =>
    rw [List.flatten_cons] at allDone
    cases visited with
    | done _ tail =>
      exact ih tail fun id inRest => allDone id (List.mem_append_right _ inRest)
    | pending head =>
      obtain ⟨id, inFirst, before, after, visit⟩ := head.exists_pending
      cases allDone id (List.mem_append_left _ inFirst) before .pending after visit

end VisitsStages

/-! ## The functions as relations -/

theorem visitsAll_of_resolveAll {visit : NodeId → Resolution → Option (Progress × Resolution)}
    {ids : List NodeId} {start final : Resolution} {progress : Progress}
    (resolved : resolveAll visit ids start = some (progress, final)) :
    VisitsAll (fun id start progress final => visit id start = some (progress, final))
      ids start progress final := by
  induction ids generalizing start progress with
  | nil =>
    cases resolved
    exact .nil
  | cons id rest ih =>
    cases head : visit id start with
    | none => simp [resolveAll, head] at resolved
    | some pair =>
      obtain ⟨first, middle⟩ := pair
      cases tail : resolveAll visit rest middle with
      | none => simp [resolveAll, head, tail] at resolved
      | some rest =>
        simp only [resolveAll, head, tail, Option.bind_eq_bind, Option.bind_some,
          Option.pure_def, Option.some.injEq, Prod.mk.injEq] at resolved
        obtain ⟨rfl, rfl⟩ := resolved
        exact .cons head (ih tail)

theorem resolveAll_of_visitsAll {visit : NodeId → Resolution → Option (Progress × Resolution)}
    {ids : List NodeId} {start final : Resolution} {progress : Progress}
    (visited : VisitsAll (fun id start progress final => visit id start = some (progress, final))
      ids start progress final) :
    resolveAll visit ids start = some (progress, final) := by
  induction visited with
  | nil => rfl
  | cons head _ ih => simp [resolveAll, head, ih]

theorem visitsStages_of_resolveStages
    {visit : NodeId → Resolution → Option (Progress × Resolution)}
    {stages : List (List NodeId)} {start final : Resolution} {progress : Progress}
    (resolved : resolveStages visit stages start = some (progress, final)) :
    VisitsStages (fun id start progress final => visit id start = some (progress, final))
      stages start progress final := by
  induction stages generalizing start progress with
  | nil =>
    cases resolved
    exact .nil
  | cons stage rest ih =>
    cases head : resolveAll visit stage start with
    | none => simp [resolveStages, head] at resolved
    | some pair =>
      obtain ⟨first, middle⟩ := pair
      have visited := visitsAll_of_resolveAll head
      simp only [resolveStages, head, Option.bind_eq_bind, Option.bind_some] at resolved
      cases first with
      | done => exact .done visited (ih resolved)
      | pending =>
        cases resolved
        exact .pending visited

theorem resolveStages_of_visitsStages
    {visit : NodeId → Resolution → Option (Progress × Resolution)}
    {stages : List (List NodeId)} {start final : Resolution} {progress : Progress}
    (visited : VisitsStages (fun id start progress final =>
      visit id start = some (progress, final)) stages start progress final) :
    resolveStages visit stages start = some (progress, final) := by
  induction visited with
  | nil => rfl
  | done head _ ih => simp [resolveStages, resolveAll_of_visitsAll head, ih]
  | pending head => simp [resolveStages, resolveAll_of_visitsAll head]

/-! ## The ways the walk of a node can go -/

/-- The report on a number that no node has. -/
def unknownNode (id : NodeId) : Diagnostic :=
  .internalError .nowhere ("unknown node " ++ id.text)

namespace Walks

variable {levels : Nat} {path : Path} {id : NodeId} {start final : Resolution} {content : Content}

theorem missing (found : start.store.content? id = none) :
    Walks (levels + 1) path id start .done (start.reportFatal (unknownNode id)) := by
  rw [Walks, resolveWithin, resolveNode, found]
  rfl

theorem marked (found : start.store.content? id = some content)
    (isMarked : content.isMarked = true) : Walks (levels + 1) path id start .done start := by
  rw [Walks, resolveWithin, resolveNode, found]
  cases content with
  | typeRef data => exact congrArg some (if_pos isMarked)
  | nameRef data => exact congrArg some (if_pos isMarked)
  | _ => exact if_pos isMarked

/-- A reference that is open is judged, and the verdict is carried out. -/
theorem reference (found : start.store.content? id = some content)
    (isReference : content.isReference = true) (isOpen : content.isMarked = false) :
    resolveWithin (levels + 1) path id start =
      some (start.carryOut id (fun bound => bound) content.givenUp
        (start.judge (path.push id) id content)) := by
  rw [resolveWithin, resolveNode, found]
  cases content with
  | typeRef data =>
    have settled : data.isSettled = false := isOpen
    rw [judge, carryOut_map]
    simp only [resolveTypeRef, settled]
    rfl
  | nameRef data =>
    have settled : data.isSettled = false := isOpen
    rw [judge, carryOut_map]
    simp only [resolveNameRef, settled]
    rfl
  | _ => cases isReference

/-- A node that is no reference and bears no mark is entered, stage by stage. -/
theorem entered (found : start.store.content? id = some content)
    (notReference : content.isReference = false) (isOpen : content.isMarked = false) :
    resolveWithin (levels + 1) path id start =
      (resolveStages (resolveWithin levels (path.push id)) content.stages start).map fun reached =>
        match reached.1 with
        | .done => (.done, reached.2.finish id)
        | .pending => (.pending, reached.2) := by
  rw [resolveWithin, resolveNode, found]
  have unresolved : content.isResolved = false := by
    cases resolved : content.isResolved with
    | false => rfl
    | true =>
      rw [Content.isMarked_of_isResolved resolved] at isOpen
      cases isOpen
  cases content with
  | typeRef data => cases notReference
  | nameRef data => cases notReference
  | _ =>
    simp only [unresolved]
    cases resolveStages (resolveWithin levels (path.push id)) _ start with
    | none => rfl
    | some pair =>
      obtain ⟨progress, reached⟩ := pair
      cases progress <;> rfl

theorem finish (found : start.store.content? id = some content)
    (notReference : content.isReference = false) (isOpen : content.isMarked = false)
    (stages : VisitsStages (Walks levels (path.push id)) content.stages start .done final) :
    Walks (levels + 1) path id start .done (final.finish id) := by
  rw [Walks, entered found notReference isOpen, resolveStages_of_visitsStages stages]
  rfl

theorem stop (found : start.store.content? id = some content)
    (notReference : content.isReference = false) (isOpen : content.isMarked = false)
    (stages : VisitsStages (Walks levels (path.push id)) content.stages start .pending final) :
    Walks (levels + 1) path id start .pending final := by
  rw [Walks, entered found notReference isOpen, resolveStages_of_visitsStages stages]
  rfl

theorem bind {bound : Content} (found : start.store.content? id = some content)
    (isReference : content.isReference = true) (isOpen : content.isMarked = false)
    (judged : start.judge (path.push id) id content = .bind bound) :
    Walks (levels + 1) path id start .done (start.modify id fun _ => bound) := by
  rw [Walks, reference found isReference isOpen, judged]
  rfl

theorem wait {reason : String} (found : start.store.content? id = some content)
    (isReference : content.isReference = true) (isOpen : content.isMarked = false)
    (judged : start.judge (path.push id) id content = .wait reason) :
    Walks (levels + 1) path id start .pending (start.defer id reason) := by
  rw [Walks, reference found isReference isOpen, judged]
  rfl

theorem reject {report : Diagnostic} (found : start.store.content? id = some content)
    (isReference : content.isReference = true) (isOpen : content.isMarked = false)
    (judged : start.judge (path.push id) id content = .reject report) :
    Walks (levels + 1) path id start .done
      ((start.reportFatal report).modify id fun _ => content.givenUp) := by
  rw [Walks, reference found isReference isOpen, judged]
  rfl

/-- What holds of every walk. A walk meets a missing node, a node that bears its mark, a reference
that it binds, defers or gives up, or a node that it enters and then finishes or leaves open; in the
last two cases the statement may be used of the walks of the nodes below. -/
theorem induction {motive : ∀ (levels : Nat) (path : Path) (id : NodeId) (start : Resolution)
      (progress : Progress) (final : Resolution),
      Walks levels path id start progress final → Prop}
    (missing : ∀ {levels : Nat} {path : Path} {id : NodeId} {start : Resolution}
      (found : start.store.content? id = none),
      motive (levels + 1) path id start .done (start.reportFatal (unknownNode id))
        (Walks.missing found))
    (marked : ∀ {levels : Nat} {path : Path} {id : NodeId} {start : Resolution}
      {content : Content} (found : start.store.content? id = some content)
      (isMarked : content.isMarked = true),
      motive (levels + 1) path id start .done start (Walks.marked found isMarked))
    (bind : ∀ {levels : Nat} {path : Path} {id : NodeId} {start : Resolution}
      {content bound : Content} (found : start.store.content? id = some content)
      (isReference : content.isReference = true) (isOpen : content.isMarked = false)
      (judged : start.judge (path.push id) id content = .bind bound),
      motive (levels + 1) path id start .done (start.modify id fun _ => bound)
        (Walks.bind found isReference isOpen judged))
    (wait : ∀ {levels : Nat} {path : Path} {id : NodeId} {start : Resolution}
      {content : Content} {reason : String} (found : start.store.content? id = some content)
      (isReference : content.isReference = true) (isOpen : content.isMarked = false)
      (judged : start.judge (path.push id) id content = .wait reason),
      motive (levels + 1) path id start .pending (start.defer id reason)
        (Walks.wait found isReference isOpen judged))
    (reject : ∀ {levels : Nat} {path : Path} {id : NodeId} {start : Resolution}
      {content : Content} {report : Diagnostic} (found : start.store.content? id = some content)
      (isReference : content.isReference = true) (isOpen : content.isMarked = false)
      (judged : start.judge (path.push id) id content = .reject report),
      motive (levels + 1) path id start .done
        ((start.reportFatal report).modify id fun _ => content.givenUp)
        (Walks.reject found isReference isOpen judged))
    (finish : ∀ {levels : Nat} {path : Path} {id : NodeId} {start final : Resolution}
      {content : Content} (found : start.store.content? id = some content)
      (notReference : content.isReference = false) (isOpen : content.isMarked = false)
      (walked : VisitsStages (Walks levels (path.push id)) content.stages start .done final),
      VisitsStages (fun child start progress final =>
        ∃ walked, motive levels (path.push id) child start progress final walked)
        content.stages start .done final →
      motive (levels + 1) path id start .done (final.finish id)
        (Walks.finish found notReference isOpen walked))
    (stop : ∀ {levels : Nat} {path : Path} {id : NodeId} {start final : Resolution}
      {content : Content} (found : start.store.content? id = some content)
      (notReference : content.isReference = false) (isOpen : content.isMarked = false)
      (walked : VisitsStages (Walks levels (path.push id)) content.stages start .pending final),
      VisitsStages (fun child start progress final =>
        ∃ walked, motive levels (path.push id) child start progress final walked)
        content.stages start .pending final →
      motive (levels + 1) path id start .pending final
        (Walks.stop found notReference isOpen walked))
    {levels : Nat} {path : Path} {id : NodeId} {start : Resolution} {progress : Progress}
    {final : Resolution} (walked : Walks levels path id start progress final) :
    motive levels path id start progress final walked := by
  -- by induction on the levels; the cases are the tests that a walk makes at its node
  induction levels generalizing path id start progress final with
  | zero => cases walked
  | succ levels ih =>
    cases found : start.store.content? id with
    | none =>
      have same := walked
      rw [Walks, Walks.missing found] at same
      cases same
      exact missing found
    | some content =>
      cases isMarked : content.isMarked with
      | true =>
        have same := walked
        rw [Walks, Walks.marked found isMarked] at same
        cases same
        exact marked found isMarked
      | false =>
        cases isReference : content.isReference with
        | true =>
          have same := walked
          rw [Walks, reference found isReference isMarked] at same
          cases judged : start.judge (path.push id) id content with
          | bind bound =>
            rw [judged] at same
            cases same
            exact bind found isReference isMarked judged
          | wait reason =>
            rw [judged] at same
            cases same
            exact wait found isReference isMarked judged
          | reject report =>
            rw [judged] at same
            cases same
            exact reject found isReference isMarked judged
        | false =>
          have same := walked
          rw [Walks, entered found isReference isMarked] at same
          obtain ⟨⟨reached, after⟩, resolved, ended⟩ := Option.map_eq_some_iff.mp same
          have visits : VisitsStages (Walks levels (path.push id)) content.stages start reached
              after := visitsStages_of_resolveStages resolved
          have stages : VisitsStages (fun child start progress final =>
              ∃ walked, motive levels (path.push id) child start progress final walked)
              content.stages start reached after :=
            visits.imp fun child _ start progress final visit => ⟨visit, ih visit⟩
          cases reached with
          | done =>
            cases ended
            exact finish found isReference isMarked visits stages
          | pending =>
            cases ended
            exact stop found isReference isMarked visits stages

/-- A walk only adds marks. -/
theorem advances {progress : Progress} (walked : Walks levels path id start progress final) :
    start.Advances final := by
  induction walked using Walks.induction with
  | missing found => exact advances_reportFatal _ _
  | marked found isMarked => exact .refl _
  | bind found isReference isOpen judged => exact advances_bind found isReference isOpen judged
  | wait found isReference isOpen judged => exact advances_defer _ _ _
  | reject found isReference isOpen judged => exact advances_giveUp found isOpen _
  | @finish levels path id start final content found notReference isOpen _ stages =>
    have below := stages.advances fun child _ _ _ _ ⟨_, step⟩ => step
    exact below.trans (advances_finish final id)
  | stop found notReference isOpen _ stages =>
    exact stages.advances fun child _ _ _ _ ⟨_, step⟩ => step

/-- The walk of a node that is entered goes through its stages. -/
theorem exists_stages {progress : Progress} (walked : Walks levels path id start progress final)
    (found : start.store.content? id = some content) (notReference : content.isReference = false)
    (isOpen : content.isMarked = false) :
    ∃ lower after, VisitsStages (Walks lower (path.push id)) content.stages start progress after ∧
      (final = after ∨ final = after.finish id) := by
  cases levels with
  | zero => cases walked
  | succ levels =>
    rw [Walks, entered found notReference isOpen] at walked
    obtain ⟨⟨reached, after⟩, resolved, ended⟩ := Option.map_eq_some_iff.mp walked
    have stages : VisitsStages (Walks levels (path.push id)) content.stages start reached after :=
      visitsStages_of_resolveStages resolved
    cases reached with
    | done =>
      cases ended
      exact ⟨levels, after, stages, Or.inr rfl⟩
    | pending =>
      cases ended
      exact ⟨levels, after, stages, Or.inl rfl⟩

/-- A walk does not look at the budget and the number of passes. -/
theorem recount {progress : Progress} (walked : Walks levels path id start progress final)
    (budget : Budget) (passes : Nat) :
    Walks levels path id (start.recount budget passes) progress
      (final.recount budget passes) := by
  induction walked using Walks.induction with
  | missing found => exact .missing found
  | marked found isMarked => exact .marked found isMarked
  | bind found isReference isOpen judged => exact .bind found isReference isOpen judged
  | wait found isReference isOpen judged => exact .wait found isReference isOpen judged
  | reject found isReference isOpen judged => exact .reject found isReference isOpen judged
  | @finish levels path id start final content found notReference isOpen _ stages =>
    have below := (stages.imp fun _ _ _ _ _ ⟨_, moved⟩ => moved).map (·.recount budget passes)
    have foundAgain : (start.recount budget passes).store.content? id = some content := found
    exact .finish foundAgain notReference isOpen below
  | @stop levels path id start final content found notReference isOpen _ stages =>
    have below := (stages.imp fun _ _ _ _ _ ⟨_, moved⟩ => moved).map (·.recount budget passes)
    have foundAgain : (start.recount budget passes).store.content? id = some content := found
    exact .stop foundAgain notReference isOpen below

end Walks

end Resolution

end Declarations
