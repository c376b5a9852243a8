import Declarations.Resolution.Lookup

/-!
# References

A reference is judged by what its name stands for at its place: it can be bound, it has to wait
for a later pass, or it can never be bound. A type reference waits until its declaration is
resolved; a name reference is bound to a variable or to an element of an enumeration as soon as
that is found.
-/

namespace Declarations

/-- What is to be done with a reference. -/
inductive Verdict (α : Type) where
  | bind (target : α)
  | wait (reason : String)
  | reject (report : Diagnostic)
  deriving DecidableEq, Repr

/-- The reason to wait for a declaration that is found but not resolved. -/
def waitingOn (name : String) : String := "waiting on " ++ Diagnostic.marked name

/-- The reason to wait for a declaration that is not found. -/
def notDeclaredYet (name : String) : String := Diagnostic.marked name ++ " is not declared yet"

/-- The reason given for a path that leads nowhere. -/
def cannotBeResolved (name : String) : String := Diagnostic.marked name ++ " cannot be resolved"

namespace Resolution

/-- Judge a type reference that stands at the end of a path. -/
def judgeType (resolution : Resolution) (path : Path) (span : Span) (name : Name) :
    Verdict TypeTarget :=
  let text := resolution.names.text name
  match resolution.lookup path name with
  | none => .wait (notDeclaredYet text)
  | some (.builtin builtin) => .bind (.builtin builtin)
  | some (.decl decl) =>
    match resolution.store.kind? decl with
    | none => .reject (.notAType span text "missing node")
    | some kind =>
      if !kind.isTypeDecl then .reject (.notAType span text kind.text)
      else if resolution.store.isResolved decl then .bind (.decl decl)
      else .wait (waitingOn text)

/-- The texts of a path of names, joined by points. -/
def pathText (resolution : Resolution) (names : List Name) : String :=
  ".".intercalate (names.map resolution.names.text)

/-- Judge a name reference whose first name stands for a declaration. -/
def judgeQualified (resolution : Resolution) (span : Span) (decl : NodeId) (head : Name)
    (rest : List Name) : Verdict NodeId :=
  let text := resolution.pathText (head :: rest)
  match resolution.store.content? decl, rest with
  | some (.variable _), [] => .bind decl
  | some (.enum data), [element] =>
    match data.members.get? element with
    | some id => .bind id
    | none => .wait (notDeclaredYet text)
  | some content, [] => .reject (.notAValue span text content.kind.text)
  | some content, _ =>
    if content.kind.isTypeDecl then .wait (cannotBeResolved text)
    else .reject (.notAType span (resolution.names.text head) content.kind.text)
  | none, _ => .wait (cannotBeResolved text)

/-- Judge a name reference that stands at the end of a path. -/
def judgeName (resolution : Resolution) (path : Path) (span : Span) :
    List Name → Verdict NodeId
  | [] => .reject (.notAValue span "<empty>" "empty path")
  | head :: rest =>
    let text := resolution.pathText (head :: rest)
    match resolution.lookup path head with
    | none => .wait (notDeclaredYet text)
    | some (.builtin builtin) =>
      .reject (.notAValue span text ("builtin type " ++ Diagnostic.marked builtin.text))
    | some (.decl decl) => resolution.judgeQualified span decl head rest

/-- Bind, defer or give up a reference as its verdict says. What cannot be bound is reported and
settled all the same. -/
def carryOut {α : Type} (resolution : Resolution) (id : NodeId)
    (bound : α → Content) (given : Content) : Verdict α → Progress × Resolution
  | .bind target => (.done, resolution.modify id fun _ => bound target)
  | .wait reason => (.pending, resolution.defer id reason)
  | .reject report => (.done, (resolution.reportFatal report).modify id fun _ => given)

/-- Try to settle a type reference. -/
def resolveTypeRef (resolution : Resolution) (path : Path) (id : NodeId)
    (reference : TypeReference) : Progress × Resolution :=
  if reference.isSettled then (.done, resolution)
  else
    resolution.carryOut id (fun target => .typeRef { reference with target := some target })
      (.typeRef { reference with failed := true })
      (resolution.judgeType path (resolution.store.span id) reference.name)

/-- Try to settle a name reference. -/
def resolveNameRef (resolution : Resolution) (path : Path) (id : NodeId)
    (reference : NameReference) : Progress × Resolution :=
  if reference.isSettled then (.done, resolution)
  else
    resolution.carryOut id (fun target => .nameRef { reference with target := some target })
      (.nameRef { reference with failed := true })
      (resolution.judgeName path (resolution.store.span id) reference.path)

end Resolution

end Declarations
