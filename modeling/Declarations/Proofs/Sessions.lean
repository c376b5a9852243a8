import Declarations.Library.Shelf

/-!
# Sessions with a shelf

A session opens libraries through a loader, looks up symbols of what it opened and closes it again,
in any order. What it is told and what the shelf is asked depend on the libraries alone and on the
paths that were opened before: a path is opened as it stands or else with the suffix, whichever that
is, and a handle finds the symbols of the path that it was opened from, whatever happens to other
handles.
-/

namespace Declarations

/-- What a session can ask for. Handles are numbered in the order in which they were given. -/
inductive LoaderRequest where
  | openPath (path : String)
  | findSymbol (handle : Nat) (name : String)
  | close (handle : Nat)
  deriving DecidableEq, Repr

/-- What a session is told. -/
inductive LoaderReply where
  | opened (number : Nat) (handle : Handle String)
  | refused (error : LoadError)
  | found (address : Address)
  | notFound (error : SymbolError)
  | closed (success : Bool)
  | noHandle
  deriving DecidableEq, Repr

namespace LoaderRequest

variable {α : Type}

/-- What a function makes of each request and of those before it. -/
def withEarlier (f : List LoaderRequest → LoaderRequest → α) (requests : List LoaderRequest) :
    List α :=
  requests.mapIdx fun index request => f (requests.take index) request

theorem withEarlier_concat (f : List LoaderRequest → LoaderRequest → α)
    (requests : List LoaderRequest) (request : LoaderRequest) :
    withEarlier f (requests ++ [request]) = withEarlier f requests ++ [f requests request] := by
  rw [withEarlier, List.mapIdx_concat, List.take_left]
  congr 1
  rw [withEarlier, List.mapIdx_eq_mapIdx_iff]
  intro index inside
  rw [List.take_append_of_le_length (Nat.le_of_lt inside)]

end LoaderRequest

/-- The shelf, the handles that were given and the replies, oldest first. A handle that was closed
keeps its number. -/
structure Session where
  shelf : Shelf
  handles : List (Handle String) := []
  replies : List LoaderReply := []

namespace Session

def reply (session : Session) (reply : LoaderReply) : Session :=
  { session with replies := session.replies ++ [reply] }

/-- The session after a request, where libraries have this suffix. -/
def after (session : Session) (suffix : String) : LoaderRequest → Session
  | .openPath path =>
    let (result, shelf) := (Loader.openPath suffix path : StateM Shelf _).run session.shelf
    match result with
    | .ok handle =>
      { session with shelf := shelf, handles := session.handles ++ [handle] }.reply
        (.opened session.handles.length handle)
    | .error error => { session with shelf := shelf }.reply (.refused error)
  | .findSymbol number name =>
    match session.handles[number]? with
    | none => session.reply .noHandle
    | some handle =>
      match Loader.findSymbol session.shelf handle name with
      | .ok address => session.reply (.found address)
      | .error error => session.reply (.notFound error)
  | .close number =>
    match session.handles[number]? with
    | none => session.reply .noHandle
    | some handle =>
      let (success, shelf) := (Loader.close handle : StateM Shelf _).run session.shelf
      { session with shelf := shelf }.reply (.closed success)

/-- The session after several requests, the first of the list first. -/
def afterAll (session : Session) (suffix : String) (requests : List LoaderRequest) : Session :=
  requests.foldl (·.after suffix) session

end Session

namespace Shelf

variable (shelf : Shelf) (suffix : String)

/-- Whether a path is the path of a library. -/
def holds (path : String) : Bool := (shelf.symbols? path).isSome

/-- The paths that are tried when a path is to be opened: the path with the suffix only if there is
no library with the path as it stands. -/
def tried (path : String) : List String :=
  if shelf.holds path then [path] else [path, path ++ suffix]

/-- The first of a path and the path with the suffix that is the path of a library. -/
def opens? (path : String) : Option String := [path, path ++ suffix].find? shelf.holds

/-- The paths that were opened, in order. -/
def opened (requests : List LoaderRequest) : List String :=
  requests.filterMap fun
    | .openPath path => shelf.opens? suffix path
    | _ => none

/-- What a request is told when others came before it. -/
def replyTo (earlier : List LoaderRequest) : LoaderRequest → LoaderReply
  | .openPath path =>
    match shelf.opens? suffix path with
    | some found => .opened (shelf.opened suffix earlier).length ⟨found, found⟩
    | none => .refused ⟨path, shelf.refusal path⟩
  | .findSymbol number name =>
    match (shelf.opened suffix earlier)[number]? with
    | none => .noHandle
    | some path =>
      match (shelf.symbols? path).bind (·.lookup name) with
      | some address => .found address
      | none => .notFound ⟨name, "undefined symbol: " ++ name⟩
  | .close number =>
    match (shelf.opened suffix earlier)[number]? with
    | none => .noHandle
    | some path => .closed (path ∉ shelf.busy)

/-- What a request asks of the shelf when others came before it. -/
def askedBy (earlier : List LoaderRequest) : LoaderRequest → List String
  | .openPath path => (shelf.tried suffix path).map ("open " ++ ·)
  | .findSymbol _ _ => []
  | .close number => (shelf.opened suffix earlier)[number]?.toList.map ("close " ++ ·)

/-- Add several requests to the record. -/
def noteAll (asked : List String) : Shelf := { shelf with record := shelf.record ++ asked }

theorem openLibrary_run (path : String) :
    (openLibrary path).run shelf =
      ((if shelf.holds path = true then .ok path else .error (shelf.refusal path) :
        Except String String), shelf.note ("open " ++ path)) := by
  have noted : (shelf.note ("open " ++ path)).symbols? path = shelf.symbols? path := rfl
  rw [openLibrary, StateT.run_bind, StateT.run_modify, pure_bind, StateT.run_bind, StateT.run_get,
    pure_bind, noted]
  cases found : shelf.symbols? path with
  | none =>
    rw [holds, found]
    rfl
  | some symbols =>
    rw [holds, found]
    rfl

theorem closeLibrary_run (path : String) :
    (closeLibrary path).run shelf =
      ((if path ∈ shelf.busy then .error "busy" else .ok () : Except String Unit),
        shelf.note ("close " ++ path)) := by
  change (if path ∈ shelf.busy then (pure (.error "busy") : StateM Shelf (Except String Unit))
    else pure (.ok ())).run (shelf.note ("close " ++ path)) = _
  split <;> rfl

/-- Opening tries the paths in turn, and is refused for the reason of the path as it stands. -/
theorem openPath_run (path : String) :
    (Loader.openPath suffix path : StateM Shelf (Except LoadError (Handle String))).run shelf =
      (match shelf.opens? suffix path with
        | some found => .ok ⟨found, found⟩
        | none => .error ⟨path, shelf.refusal path⟩,
        shelf.noteAll ((shelf.tried suffix path).map ("open " ++ ·))) := by
  have first : (Backend.openLibrary path : StateM Shelf _).run shelf = _ :=
    shelf.openLibrary_run path
  have second : (Backend.openLibrary (path ++ suffix) : StateM Shelf _).run
      (shelf.note ("open " ++ path)) = _ :=
    (shelf.note ("open " ++ path)).openLibrary_run (path ++ suffix)
  have sameHolds : (shelf.note ("open " ++ path)).holds (path ++ suffix) =
    shelf.holds (path ++ suffix) := rfl
  rw [Loader.openPath, StateT.run_bind, first]
  rw [sameHolds] at second
  cases held : shelf.holds path with
  | true =>
    have finds : shelf.opens? suffix path = some path := by simp [opens?, held]
    have tries : shelf.tried suffix path = [path] := by simp [tried, held]
    rw [finds, tries]
    rfl
  | false =>
    have tries : shelf.tried suffix path = [path, path ++ suffix] := by simp [tried, held]
    have noted : (shelf.note ("open " ++ path)).note ("open " ++ (path ++ suffix)) =
        shelf.noteAll ((shelf.tried suffix path).map ("open " ++ ·)) := by
      simp [tries, note, noteAll]
    change ((Backend.openLibrary (path ++ suffix) >>= _ : StateM Shelf _).run
      (shelf.note ("open " ++ path))) = _
    rw [StateT.run_bind, second, noted]
    cases heldSuffixed : shelf.holds (path ++ suffix) with
    | true =>
      have finds : shelf.opens? suffix path = some (path ++ suffix) := by
        simp [opens?, held, heldSuffixed]
      rw [finds]
      rfl
    | false =>
      have finds : shelf.opens? suffix path = none := by simp [opens?, held, heldSuffixed]
      rw [finds]
      rfl

/-- A handle finds the symbols of its path. -/
theorem findSymbol_eq (path name : String) :
    Loader.findSymbol shelf ⟨path, path⟩ name =
      match (shelf.symbols? path).bind (·.lookup name) with
      | some address => .ok address
      | none => .error ⟨name, "undefined symbol: " ++ name⟩ := by
  change (shelf.symbol path name).mapError _ = _
  rw [symbol]
  cases (shelf.symbols? path).bind (·.lookup name) <;> rfl

theorem close_run (path : String) :
    (Loader.close ⟨path, path⟩ : StateM Shelf Bool).run shelf =
      (decide (path ∉ shelf.busy), shelf.note ("close " ++ path)) := by
  have closes : (Backend.closeLibrary path : StateM Shelf _).run shelf = _ :=
    shelf.closeLibrary_run path
  rw [Loader.close, StateT.run_bind, closes]
  by_cases busy : path ∈ shelf.busy
  · rw [if_pos busy, decide_eq_false (not_not_intro busy)]
    rfl
  · rw [if_neg busy, decide_eq_true busy]
    rfl

theorem noteAll_noteAll (asked more : List String) :
    (shelf.noteAll asked).noteAll more = shelf.noteAll (asked ++ more) := by
  simp [noteAll]

theorem opened_append (requests more : List LoaderRequest) :
    shelf.opened suffix (requests ++ more) =
      shelf.opened suffix requests ++ shelf.opened suffix more :=
  List.filterMap_append

end Shelf

namespace Session

variable {session : Session} {suffix : String} {shelf : Shelf} {earlier : List LoaderRequest}
  {request : LoaderRequest}

/-- The session is what the requests make of it. -/
structure Follows (session : Session) (suffix : String) (shelf : Shelf)
    (requests : List LoaderRequest) : Prop where
  asked : session.shelf =
    shelf.noteAll (LoaderRequest.withEarlier (shelf.askedBy suffix) requests).flatten
  handles : session.handles = (shelf.opened suffix requests).map fun path => ⟨path, path⟩
  replies : session.replies = LoaderRequest.withEarlier (shelf.replyTo suffix) requests

namespace Follows

theorem start (suffix : String) (shelf : Shelf) : Follows { shelf := shelf } suffix shelf [] where
  asked := by simp [Shelf.noteAll, LoaderRequest.withEarlier]
  handles := rfl
  replies := rfl

/-- One request more: what it asks, the handle that it is given and its reply come last. -/
theorem concat (follows : session.Follows suffix shelf earlier) {next : Session}
    (asked : next.shelf = session.shelf.noteAll (shelf.askedBy suffix earlier request))
    (handles : next.handles =
      session.handles ++ (shelf.opened suffix [request]).map fun path => ⟨path, path⟩)
    (replies : next.replies = session.replies ++ [shelf.replyTo suffix earlier request]) :
    next.Follows suffix shelf (earlier ++ [request]) where
  asked := by
    rw [asked, follows.asked, Shelf.noteAll_noteAll, LoaderRequest.withEarlier_concat,
      List.flatten_append, List.flatten_singleton]
  handles := by rw [handles, follows.handles, Shelf.opened_append, List.map_append]
  replies := by rw [replies, follows.replies, LoaderRequest.withEarlier_concat]

/-- A handle stands for the path that was opened under its number. -/
theorem getElem?_handles (follows : session.Follows suffix shelf earlier) (number : Nat) :
    session.handles[number]? =
      (shelf.opened suffix earlier)[number]?.map fun path => ⟨path, path⟩ := by
  rw [follows.handles, List.getElem?_map]

theorem openPath (follows : session.Follows suffix shelf earlier) (path : String) :
    (session.after suffix (.openPath path)).Follows suffix shelf (earlier ++ [.openPath path]) := by
  have opens := session.shelf.openPath_run suffix path
  have same : session.shelf.opens? suffix path = shelf.opens? suffix path := by
    rw [follows.asked]
    rfl
  have tries : session.shelf.tried suffix path = shelf.tried suffix path := by
    rw [follows.asked]
    rfl
  have reason : session.shelf.refusal path = shelf.refusal path := by rw [follows.asked]; rfl
  rw [same, tries, reason] at opens
  have count : session.handles.length = (shelf.opened suffix earlier).length := by
    rw [follows.handles, List.length_map]
  simp only [Session.after, opens]
  cases found : shelf.opens? suffix path with
  | some opened =>
    exact follows.concat rfl (by simp [reply, Shelf.opened, found])
      (by simp [reply, Shelf.replyTo, found, count])
  | none =>
    exact follows.concat rfl (by simp [reply, Shelf.opened, found])
      (by simp [reply, Shelf.replyTo, found])

theorem findSymbol (follows : session.Follows suffix shelf earlier) (number : Nat) (name : String) :
    (session.after suffix (.findSymbol number name)).Follows suffix shelf
      (earlier ++ [.findSymbol number name]) := by
  have untouched : session.shelf.noteAll [] = session.shelf := by simp [Shelf.noteAll]
  simp only [Session.after, follows.getElem?_handles]
  cases given : (shelf.opened suffix earlier)[number]? with
  | none =>
    exact follows.concat untouched.symm (List.append_nil _).symm
      (by simp [reply, Shelf.replyTo, given])
  | some path =>
    have same : session.shelf.symbols? path = shelf.symbols? path := by rw [follows.asked]; rfl
    simp only [Option.map_some, Shelf.findSymbol_eq, same]
    cases found : (shelf.symbols? path).bind (·.lookup name) with
    | none =>
      exact follows.concat untouched.symm (List.append_nil _).symm
        (by simp [reply, Shelf.replyTo, given, found])
    | some address =>
      exact follows.concat untouched.symm (List.append_nil _).symm
        (by simp [reply, Shelf.replyTo, given, found])

theorem close (follows : session.Follows suffix shelf earlier) (number : Nat) :
    (session.after suffix (.close number)).Follows suffix shelf (earlier ++ [.close number]) := by
  simp only [Session.after, follows.getElem?_handles]
  cases given : (shelf.opened suffix earlier)[number]? with
  | none =>
    exact follows.concat (by simp [reply, Shelf.askedBy, given, Shelf.noteAll])
      (List.append_nil _).symm (by simp [reply, Shelf.replyTo, given])
  | some path =>
    have same : session.shelf.busy = shelf.busy := by rw [follows.asked]; rfl
    simp only [Option.map_some, Shelf.close_run, same]
    exact follows.concat (by simp [reply, Shelf.askedBy, given, Shelf.noteAll, Shelf.note])
      (List.append_nil _).symm (by simp [reply, Shelf.replyTo, given])

theorem after (follows : session.Follows suffix shelf earlier) (request : LoaderRequest) :
    (session.after suffix request).Follows suffix shelf (earlier ++ [request]) := by
  cases request with
  | openPath path => exact follows.openPath path
  | findSymbol number name => exact follows.findSymbol number name
  | close number => exact follows.close number

/-- A session follows all the requests that are made. -/
theorem afterAll (follows : session.Follows suffix shelf earlier) (requests : List LoaderRequest) :
    (session.afterAll suffix requests).Follows suffix shelf (earlier ++ requests) := by
  induction requests generalizing session earlier with
  | nil =>
    rw [List.append_nil]
    exact follows
  | cons request rest ih =>
    have next := ih (follows.after request)
    rwa [List.append_assoc] at next

end Follows

/-- Whatever a session asks for, every request is told what the libraries and the paths opened
before it say, the record gets what every request asks, in order, and nothing else of the shelf
changes. What a handle stands for is not changed by any further request. -/
theorem afterAll_answers (suffix : String) (shelf : Shelf) (requests : List LoaderRequest) :
    (Session.afterAll { shelf := shelf } suffix requests).replies =
      LoaderRequest.withEarlier (shelf.replyTo suffix) requests ∧
    (Session.afterAll { shelf := shelf } suffix requests).shelf =
      shelf.noteAll (LoaderRequest.withEarlier (shelf.askedBy suffix) requests).flatten ∧
    ∀ (more : List LoaderRequest) (number : Nat) (path : String),
      (shelf.opened suffix requests)[number]? = some path →
        (shelf.opened suffix (requests ++ more))[number]? = some path := by
  have follows := (Follows.start suffix shelf).afterAll requests
  refine ⟨follows.replies, follows.asked, fun more number path given => ?_⟩
  rw [Shelf.opened_append, List.getElem?_append_left (List.getElem?_eq_some_iff.mp given).1]
  exact given

/-- Two libraries of nearly one name. The first path is opened with the suffix while the second is
there as it stands; the third has the suffix already and is still tried with another. -/
example :
    let shelf : Shelf :=
      { libraries := [("a.so", [("f", ⟨16⟩)]), ("b", [("f", ⟨32⟩)])]
        reasons := [("c.so", "no such file")]
        busy := ["a.so"] }
    let session := Session.afterAll { shelf := shelf } Platform.other.suffix
      [.openPath "a", .openPath "b", .openPath "c.so", .close 1, .findSymbol 0 "f",
        .findSymbol 0 "g", .close 0, .close 2]
    session.replies =
        [.opened 0 ⟨"a.so", "a.so"⟩, .opened 1 ⟨"b", "b"⟩, .refused ⟨"c.so", "no such file"⟩,
          .closed true, .found ⟨16⟩, .notFound ⟨"g", "undefined symbol: g"⟩, .closed false,
          .noHandle] ∧
      session.shelf.record =
        ["open a", "open a.so", "open b", "open c.so", "open c.so.so", "close b",
          "close a.so"] := by
  decide

end Session

end Declarations
