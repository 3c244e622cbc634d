import StatusBoard.Hierarchy
import StatusBoard.Recorder

/-!
# Sessions

A session is a store that starts empty, a depth policy, and possibly a subject whose
records cannot be read in hierarchies. Operations are run on it one after another.

## Main definitions

* `Operation`, `Answer` — what can be asked of a session, and what it answers
* `Session.step` — one operation: its answer or failure, and the session after it
* `Session.run` — a list of operations
-/

namespace StatusBoard

/-- What can be asked of a session. -/
inductive Operation where
  | rebuild (metric : String) (definition : ThresholdDefinition)
  | publish (metric : String) (ranges : List Range)
  | clear (metric : String)
  | classify (metric : String) (raw : Option String)
  | replaceMarkers (metric : String) (markers : List Marker)
  | markers (metric : String)
  | first (metric : String) (value : Binary64)
  | record (now : Instant) (subject metric : String) (raw : Option String)
  | putSample (subject metric : String) (fields : Fields)
  | putMetric (metric : String) (fields : Fields)
  | sampleRecords (subject : String)
  | metricFields (metric : String)
  | setAvailable (available : Bool)
  | failOn (subject : Option String)
  | attach (node : Subject) (filter : FilterSpec)
  | visit (root : Subject) (filter : FilterSpec)
  | materialize (root : Subject) (filter : FilterSpec) (depth : Option Nat)
  | query (root : Subject) (query : Query)

/-- What a session answers. Answers about hierarchies come with the subjects whose records
were asked for. -/
inductive Answer where
  | done
  | ranges (ranges : List Range)
  | severity (severity : Severity)
  | markers (markers : List Marker)
  | first (marker : Option Marker)
  | sample (sample : Sample)
  | records (records : List Fields)
  | fields (fields : Option Fields)
  | attached (node : Subject) (matched : Bool) (asked : List String)
  | visited (visit : Visit) (asked : List String)
  | tree (tree : Option Subject) (asked : List String)

/-- A store in use. -/
structure Session where
  store : Store
  policy : DepthPolicy
  failing : Option String

namespace Session

/-- A session with an empty store. -/
def start (policy : DepthPolicy) : Session := ⟨.empty, policy, none⟩

/-- The records that hierarchies read: those of the store, save for the failing subject. -/
def source (s : Session) : RecordSource := fun path =>
  if s.failing = some path then .error (.connectionReset path) else s.store.sampleRecords path

/-- The outcome of an access to the store, and the session with the store as it is left. -/
def accessing {α : Type} (s : Session) (access : Access α) (answer : α → Answer) :
    Except Failure Answer × Session :=
  let (result, store) := access.runOn s.store
  (result.map answer, { s with store })

/-- The outcome of an operation that reads the store. -/
def reading {α : Type} (s : Session) (operation : Store → Except Outage α) (answer : α → Answer) :
    Except Failure Answer × Session :=
  s.accessing (.reading operation) answer

/-- The outcome of an operation that writes to the store and has nothing to tell. -/
def writing (s : Session) (operation : Store → Except Outage Store) :
    Except Failure Answer × Session :=
  s.accessing (.writing operation) fun _ => .done

/-- The outcome of a computation that asks for records. -/
def fetching {α : Type} (s : Session) (computation : Fetch Failure α)
    (answer : α → List String → Answer) : Except Failure Answer × Session :=
  -- The subjects are noted even if the computation fails, but a failure does not show them.
  let (result, asked) := computation.run.run []
  (result.map fun value => answer value asked, s)

/-- Runs one operation. -/
def step (s : Session) : Operation → Except Failure Answer × Session
  | .rebuild metric definition => s.accessing (.rebuild metric definition) .ranges
  | .publish metric ranges => s.writing fun store => store.publish metric ranges
  | .clear metric => s.writing fun store => store.removeMarkers metric
  | .classify metric raw => s.reading (fun store => store.classify metric raw) .severity
  | .replaceMarkers metric markers => s.writing fun store => store.replaceMarkers metric markers
  | .markers metric => s.reading (fun store => store.markersOf metric) .markers
  | .first metric value => s.reading (fun store => store.firstAtOrAbove metric value) .first
  | .record now subject metric raw => s.accessing (.record now subject metric raw) .sample
  | .putSample subject metric fields =>
    s.writing fun store => store.putSample subject metric fields
  | .putMetric metric fields => s.writing fun store => store.putMetric metric fields
  | .sampleRecords subject => s.reading (fun store => store.sampleRecords subject) .records
  | .metricFields metric => s.reading (fun store => store.metricFields metric) .fields
  | .setAvailable available => (.ok .done, { s with store := s.store.setAvailable available })
  | .failOn subject => (.ok .done, { s with failing := subject })
  | .attach node filter =>
    s.fetching ((node.attachSamples s.source filter).adapt .unavailable) fun (node, matched) =>
      .attached node matched
  | .visit root filter => s.fetching ((root.visit s.source filter).adapt .unavailable) .visited
  | .materialize root filter depth =>
    s.fetching ((root.materialize s.policy s.source filter depth).adapt .unavailable) .tree
  | .query root query => s.fetching (root.answer s.policy s.source query) .tree

/-- Runs operations in order: the outcome of each, and the session at the end. -/
def run (s : Session) : List Operation → List (Except Failure Answer) × Session
  | [] => ([], s)
  | op :: ops =>
    let (outcome, next) := s.step op
    let (outcomes, last) := next.run ops
    (outcome :: outcomes, last)

end Session

end StatusBoard
