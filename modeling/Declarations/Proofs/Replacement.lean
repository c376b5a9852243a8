import Declarations.Proofs.Forest
import Declarations.Proofs.Registration
import Declarations.Store.Replace

/-!
# Exchanging a child

An exchange goes by the first place of a node that holds the old child. `Content.Exchanges` says
what becomes of the content, with one case for each kind of place: that place goes to the new child,
and in a module all symbols of the old child go with it. An exchange is made exactly where the
parent holds the old child and is no enumeration; nothing else changes, and a refused exchange
changes nothing at all. If the new child was in none of the places and under none of the symbols,
the exchange can be taken back.
-/

namespace Declarations

/-- The symbol stands for `new` if it stood for `old`. -/
def retarget (old new : NodeId) (symbol : Name × NodeId) : Name × NodeId :=
  if symbol.2 = old then (symbol.1, new) else symbol

/-- The nodes that the symbols of a module stand for; other nodes have no symbols. -/
def Content.targets : Content → List NodeId
  | .module data => data.symbols.map Prod.snd
  | _ => []

/-- The first place that holds `old` goes to `new`. -/
inductive Content.Exchanges (old new : NodeId) : Content → Content → Prop
  | declaration {scope : Module} {early late : List NodeId}
      (placed : scope.declarations = early ++ old :: late) (first : old ∉ early) :
      Exchanges old new (.module scope) (.module
        { scope with
          declarations := early ++ new :: late
          symbols := scope.symbols.map (retarget old new) })
  | fromType {data : Cover} (held : data.fromType = some old) :
      Exchanges old new (.cover data) (.cover { data with fromType := some new })
  | elementValue {data : Element} (held : data.value = some old) :
      Exchanges old new (.element data) (.element { data with value := some new })
  | variableType {data : Variable} (held : data.type = some old) :
      Exchanges old new (.variable data) (.variable { data with type := some new })
  | variableValue {data : Variable} (other : data.type ≠ some old) (held : data.value = some old) :
      Exchanges old new (.variable data) (.variable { data with value := some new })

/-- A symbol that did not stand for the new child stands again for what it stood for. -/
theorem retarget_retarget {old new : NodeId} {symbol : Name × NodeId} (unused : symbol.2 ≠ new) :
    retarget new old (retarget old new symbol) = symbol := by
  unfold retarget
  by_cases stands : symbol.2 = old
  · subst stands
    simp
  · simp [stands, unused]

theorem Module.replace?_of_placed {scope : Module} {old : NodeId} {early late : List NodeId}
    (placed : scope.declarations = early ++ old :: late) (first : old ∉ early) (new : NodeId) :
    scope.replace? old new = some
      { scope with
        declarations := early ++ new :: late
        symbols := scope.symbols.map (retarget old new) } := by
  have exchanged : (early ++ old :: late).replace old new = early ++ new :: late := by
    rw [List.replace_append_right first, List.replace_cons_self]
  have listed : old ∈ early ++ old :: late := by simp
  unfold replace?
  rw [placed, if_pos listed, exchanged]
  rfl

namespace Content

variable {old new : NodeId} {content changed : Content}

namespace Exchanges

theorem kind_mem (exchanges : content.Exchanges old new changed) :
    content.kind ∈ [Kind.module, .cover, .variable, .element] := by
  cases exchanges <;> simp [kind]

/-- One of the children is exchanged, and the others stay in their places. -/
theorem children (exchanges : content.Exchanges old new changed) :
    ∃ early late, content.children = early ++ old :: late ∧ old ∉ early ∧
      changed.children = early ++ new :: late := by
  cases exchanges with
  | @declaration scope early late placed first =>
    exact ⟨early, late, by simp [Content.children, stages, placed], first,
      by simp [Content.children, stages]⟩
  | fromType held | elementValue held =>
    exact ⟨[], [], by simp [Content.children, stages, held], by simp,
      by simp [Content.children, stages]⟩
  | @variableType data held =>
    exact ⟨[], data.value.toList, by simp [Content.children, stages, held], by simp,
      by simp [Content.children, stages]⟩
  | @variableValue data other held =>
    refine ⟨data.type.toList, [], by simp [Content.children, stages, held], ?_,
      by simp [Content.children, stages]⟩
    simpa using other

/-- An exchange for a node that is new to the places and the symbols can be taken back. -/
theorem reverse (exchanges : content.Exchanges old new changed) (isNew : new ∉ content.children)
    (unused : new ∉ content.targets) : changed.Exchanges new old content := by
  cases exchanges with
  | @declaration scope early late placed first =>
    obtain ⟨name, declarations, imports, symbols⟩ := scope
    cases placed
    have notEarly : new ∉ early := by
      intro member
      exact isNew (by simp [Content.children, stages, member])
    have restored : (symbols.map (retarget old new)).map (retarget new old) = symbols := by
      rw [List.map_map]
      refine (List.map_congr_left ?_).trans (List.map_id symbols)
      intro symbol member
      apply retarget_retarget
      rintro rfl
      exact unused (List.mem_map_of_mem member)
    have back := @declaration new old ⟨name, early ++ new :: late, imports,
      symbols.map (retarget old new)⟩ early late rfl notEarly
    rw [restored] at back
    exact back
  | @fromType data held =>
    obtain ⟨header, members, place⟩ := data
    cases held
    exact .fromType rfl
  | @elementValue data held =>
    obtain ⟨header, value, valueSet, type, doc⟩ := data
    cases held
    exact .elementValue rfl
  | @variableType data held =>
    obtain ⟨header, type, value⟩ := data
    cases held
    exact .variableType rfl
  | @variableValue data other held =>
    obtain ⟨header, type, value⟩ := data
    cases held
    refine .variableValue ?_ rfl
    intro (ofType : type = some new)
    exact isNew (by simp [Content.children, stages, ofType])

end Exchanges

theorem replace?_of_exchanges (exchanges : content.Exchanges old new changed) :
    content.replace? old new = some changed := by
  cases exchanges with
  | declaration placed first => simp [replace?, Module.replace?_of_placed placed first]
  | fromType held | elementValue held | variableType held => simp [replace?, held]
  | variableValue other held => simp [replace?, other, held]

/-- A child that a node holds can be exchanged, unless the node is an enumeration. -/
theorem exists_exchanges (held : old ∈ content.children) (notEnum : content.kind ≠ .enum)
    (new : NodeId) : ∃ changed, content.Exchanges old new changed := by
  cases content with
  | module scope =>
    obtain ⟨early, late, placed, first⟩ : ∃ early late,
        scope.declarations = early ++ old :: late ∧ old ∉ early := by
      apply List.eq_append_cons_of_mem
      simpa [children, stages] using held
    exact ⟨_, .declaration placed first⟩
  | cover data => exact ⟨_, .fromType (by simpa [children, stages] using held)⟩
  | element data => exact ⟨_, .elementValue (by simpa [children, stages] using held)⟩
  | «variable» data =>
    by_cases ofType : data.type = some old
    · exact ⟨_, .variableType ofType⟩
    · exact ⟨_, .variableValue ofType (by simpa [children, stages, ofType] using held)⟩
  | enum data => cases notEnum rfl
  | literal | typeRef | nameRef => simp [children, stages] at held

/-- A node that is not held cannot be exchanged. -/
theorem replace?_of_not_mem (apart : old ∉ content.children) (new : NodeId) :
    content.replace? old new = none := by
  cases content with
  | module scope =>
    have unlisted : old ∉ scope.declarations := by simpa [children, stages] using apart
    simp [replace?, Module.replace?, unlisted]
  | cover data =>
    have unheld : data.fromType ≠ some old := by simpa [children, stages] using apart
    simp [replace?, unheld]
  | element data =>
    have unheld : data.value ≠ some old := by simpa [children, stages] using apart
    simp [replace?, unheld]
  | «variable» data =>
    have unheld : data.type ≠ some old ∧ data.value ≠ some old := by
      simpa [children, stages] using apart
    simp [replace?, unheld]
  | enum | literal | typeRef | nameRef => rfl

end Content

namespace Store

variable {store : Store} {parent old new : NodeId} {content changed : Content}

/-- The nodes that the symbols of a node stand for. -/
def targets (store : Store) (id : NodeId) : List NodeId :=
  ((store.content? id).map Content.targets).getD []

/-! ## The three outcomes -/

theorem replaceChild_of_enum (isEnum : store.kind? parent = some .enum) :
    (replaceChild parent old new).apply store = (.error (.notReplaceable .enum), store) := by
  obtain ⟨content, found, kind⟩ := Option.map_eq_some_iff.mp isEnum
  cases content with
  | enum data => simp [replaceChild, found]
  | _ => cases kind

theorem replaceChild_of_not_holds (notEnum : store.kind? parent ≠ some .enum)
    (apart : ¬ store.Holds parent old) :
    (replaceChild parent old new).apply store = (.error (.childNotFound parent old), store) := by
  cases found : store.content? parent with
  | none => simp [replaceChild, found]
  | some content =>
    have unheld : content.replace? old new = none := by
      apply Content.replace?_of_not_mem
      intro member
      exact apart (holds_iff.mpr ⟨content, found, member⟩)
    cases content with
    | enum data => cases notEnum (by simp [kind?, found, Content.kind])
    | _ => simp [replaceChild, found, unheld]

theorem replaceChild_of_exchanges (found : store.content? parent = some content)
    (exchanges : content.Exchanges old new changed) :
    (replaceChild parent old new).apply store = (.ok (), store.setContent parent changed) := by
  have replaced := Content.replace?_of_exchanges exchanges
  cases exchanges <;> simp [replaceChild, found, replaced]

/-- The parent reads as its changed content, in its old place, and all other nodes as before. -/
theorem get?_exchange (found : store.content? parent = some content) (id : NodeId) :
    (store.setContent parent changed).get? id =
      if parent = id then some ⟨changed, store.span parent⟩ else store.get? id := by
  rw [get?_setContent]
  by_cases same : parent = id
  · subst same
    simp [get?_of_content? found]
  · simp [same]

/-- An exchange that is taken back leaves the store as it was. -/
theorem replaceChild_reverse (found : store.content? parent = some content)
    (exchanges : content.Exchanges old new changed) (isNew : new ∉ content.children)
    (unused : new ∉ content.targets) :
    (replaceChild parent new old).apply (store.setContent parent changed) = (.ok (), store) := by
  have foundAfter : (store.setContent parent changed).content? parent = some changed := by
    simp [content?_setContent, found]
  rw [replaceChild_of_exchanges foundAfter (exchanges.reverse isNew unused), setContent_setContent]
  have restored : store.setContent parent content = store := by
    apply modify_eq_self
    intro current foundCurrent
    rw [found] at foundCurrent
    exact Option.some.inj foundCurrent
  rw [restored]

/-! ## What an exchange does -/

/-- What comes of asking for an exchange: an answer and the store after it. -/
structure Replaces (store : Store) (parent old new : NodeId) (answer : Except ReplaceError Unit)
    (after : Store) : Prop where
  notReplaceable_iff : answer = .error (.notReplaceable .enum) ↔ store.kind? parent = some .enum
  ok_iff : answer = .ok () ↔ ∃ kind ∈ [Kind.module, .cover, .variable, .element],
    store.kind? parent = some kind ∧ store.Holds parent old
  childNotFound_iff : answer = .error (.childNotFound parent old) ↔
    store.kind? parent ≠ some .enum ∧ ¬ store.Holds parent old
  refused : ∀ error, answer = .error error → after = store
  /-- Only the parent changes, and it stays where it stands in the source. -/
  others : ∀ id, id ≠ parent → after.get? id = store.get? id
  span : after.span parent = store.span parent
  size : after.size = store.size
  /-- In the parent, the first place that holds the old child goes to the new one. -/
  changed : answer = .ok () → ∃ content changed, store.content? parent = some content ∧
    after.content? parent = some changed ∧ content.Exchanges old new changed
  children : answer = .ok () → ∃ early late, store.children parent = early ++ old :: late ∧
    old ∉ early ∧ after.children parent = early ++ new :: late
  /-- The exchange can be taken back if the new child was new to the parent. -/
  reversible : answer = .ok () → ¬ store.Holds parent new → new ∉ store.targets parent →
    (replaceChild parent new old).apply after = (.ok (), store)

/-- Where the parent holds the old child and is no enumeration, the exchange is made. -/
theorem replaces_of_exchanges (found : store.content? parent = some content)
    (exchanges : content.Exchanges old new changed) :
    store.Replaces parent old new (.ok ()) (store.setContent parent changed) := by
  have kind : store.kind? parent = some content.kind := by simp [kind?, found]
  have foundAfter : (store.setContent parent changed).content? parent = some changed := by
    simp [content?_setContent, found]
  obtain ⟨early, late, before, first, after⟩ := exchanges.children
  have held : store.Holds parent old := holds_iff.mpr ⟨content, found, by simp [before]⟩
  have mem := exchanges.kind_mem
  refine ⟨?_, ?_, ?_, ?_, ?_, ?_, ?_, ?_, ?_, ?_⟩
  · have notEnum : content.kind ≠ .enum := by
      intro isEnum
      simp [isEnum] at mem
    simp [kind, notEnum]
  · exact iff_of_true rfl ⟨content.kind, mem, kind, held⟩
  · simp [held]
  · intro error refused
    cases refused
  · intro id different
    rw [get?_exchange found, if_neg (Ne.symm different)]
  · simp [setContent]
  · simp [setContent]
  · intro _
    exact ⟨content, changed, found, foundAfter, exchanges⟩
  · intro _
    exact ⟨early, late, by simp [children, found, before], first,
      by simp [children, foundAfter, after]⟩
  · intro _ isNew unused
    apply replaceChild_reverse found exchanges
    · intro member
      exact isNew (holds_iff.mpr ⟨content, found, member⟩)
    · simpa [targets, found] using unused

/-- Whatever is asked, the answer says which of the three cases there is. A refusal changes nothing.
An exchange changes one place of the parent, and of a module also the symbols of the old child, and
can be taken back if the new child was in no place and under no symbol of the parent. -/
theorem replaceChild_exact (store : Store) (parent old new : NodeId) :
    store.Replaces parent old new ((replaceChild parent old new).apply store).1
      ((replaceChild parent old new).apply store).2 := by
  by_cases isEnum : store.kind? parent = some .enum
  · rw [replaceChild_of_enum isEnum]
    constructor <;> simp [isEnum]
  · by_cases held : store.Holds parent old
    · obtain ⟨content, found, member⟩ := holds_iff.mp held
      have notEnum : content.kind ≠ .enum := by
        intro same
        exact isEnum (by simp [kind?, found, same])
      obtain ⟨changed, exchanges⟩ := Content.exists_exchanges member notEnum new
      rw [replaceChild_of_exchanges found exchanges]
      exact replaces_of_exchanges found exchanges
    · rw [replaceChild_of_not_holds isEnum held]
      constructor <;> simp [isEnum, held]

/-- A variable whose type and value are one node, and a module that lists it twice, under two
names. -/
def doubled : Store :=
  ⟨#[⟨.literal (.int 4), ⟨0, 1⟩⟩,
    ⟨.typeRef { name := ⟨1⟩ }, ⟨2, 5⟩⟩,
    ⟨.variable { header := { name := ⟨2⟩ }, type := some ⟨1⟩, value := some ⟨1⟩ }, ⟨6, 9⟩⟩,
    ⟨.module
      { name := ⟨3⟩
        declarations := [⟨2⟩, ⟨2⟩]
        symbols := [(⟨2⟩, ⟨2⟩), (⟨4⟩, ⟨2⟩)] }, ⟨0, 9⟩⟩]⟩

/-- Both exchanges go by the first place alone, the second also by both names, for a node that does
not exist. Taken back in turn, they leave the store as it was. -/
theorem replaceChild_exact_doubled :
    (∃ after, (replaceChild ⟨2⟩ ⟨1⟩ ⟨0⟩).apply doubled = (.ok (), after) ∧
      after.children ⟨2⟩ = [⟨0⟩, ⟨1⟩] ∧
      (replaceChild ⟨2⟩ ⟨0⟩ ⟨1⟩).apply after = (.ok (), doubled)) ∧
    (∃ after, (replaceChild ⟨3⟩ ⟨2⟩ ⟨9⟩).apply doubled = (.ok (), after) ∧
      after.children ⟨3⟩ = [⟨9⟩, ⟨2⟩] ∧ after.targets ⟨3⟩ = [⟨9⟩, ⟨9⟩] ∧
      (replaceChild ⟨3⟩ ⟨9⟩ ⟨2⟩).apply after = (.ok (), doubled)) := by
  have first := replaceChild_exact doubled ⟨2⟩ ⟨1⟩ ⟨0⟩
  have second := replaceChild_exact doubled ⟨3⟩ ⟨2⟩ ⟨9⟩
  refine ⟨⟨_, rfl, by decide, first.reversible rfl ?_ ?_⟩,
    ⟨_, rfl, by decide, by decide, second.reversible rfl ?_ ?_⟩⟩
  · unfold Holds
    decide
  · decide
  · unfold Holds
    decide
  · decide

end Store

end Declarations
