import RecordViews.Generated
import RecordViews.Request.Priority
import RecordViews.Round.Resolved
import RecordViews.Sink
import RecordViews.View.Constants

/-!
One round: every request of every bearer is carried out, put off in favour of another bearer,
skipped because its name was generated before, or failed. No failure goes beyond its request; but a
text that is taken for an identifier without being one ends the round, and then there is no report.
-/

namespace RecordViews

inductive UnitKind where
  | view | metaType
deriving DecidableEq, Repr, Inhabited

/-- How a request ended. -/
inductive OutcomeState where
  | rendered
  | deferred (winner : TypeName)
  | duplicate
  | failed
  /-- It took a text for an identifier that is none, and the round ended with it. -/
  | aborted (text : String)
deriving DecidableEq, Repr, Inhabited

def OutcomeState.abort? : OutcomeState → Option String
  | .aborted text => some text
  | _ => none

structure Outcome where
  bearer : TypeName
  kind : UnitKind
  target : TypeName
  generated : TypeName
  state : OutcomeState
deriving DecidableEq, Repr, Inhabited

inductive Task where
  | view (bearer : Bearer) (request : ViewRequest)
  | metaType (bearer : Bearer) (request : MetaRequest)
deriving DecidableEq, Repr, Inhabited

namespace Task

def ofBearer (b : Bearer) : List Task :=
  b.requests.map (.view b) ++ b.metas.map (.metaType b)

def ofBearers (bearers : List Bearer) : List Task :=
  bearers.flatMap ofBearer

def bearer : Task → Bearer
  | .view b _ => b
  | .metaType b _ => b

def kind : Task → UnitKind
  | .view .. => .view
  | .metaType .. => .metaType

def target : Task → TypeName
  | .view b request => request.target.resolve b.name
  | .metaType b request => request.target.resolve b.name

def generated (r : Round) : Task → TypeName
  | .view b request => r.viewName b request
  | .metaType b request => r.metaName b request

def winner? (r : Round) : Task → Option TypeName
  | t@(.view ..) => Bearer.viewWinner? r.bearers t.target
  | t@(.metaType ..) => Bearer.metaWinner? r.bearers t.target

/-- The bearer that the request is put off in favour of: the one that has priority, if that is
another one. -/
def deferredTo? (r : Round) (t : Task) : Option TypeName :=
  (t.winner? r).filter (· != t.bearer.name)

def deferralMessage (r : Round) (winner : TypeName) : Task → String
  | t@(.view ..) =>
    "The view \"" ++ (t.generated r).text ++ "\" configured on \"" ++ t.bearer.name.text ++
      "\" will not be generated, because \"" ++ winner.text ++ "\" has configured a view of \"" ++
      t.target.text ++ "\" and has a higher priority."
  | t@(.metaType ..) =>
    "The meta type \"" ++ (t.generated r).text ++ "\" configured on \"" ++ t.bearer.name.text ++
      "\" will not be generated, because \"" ++ winner.text ++
      "\" has configured a similar meta type and has a higher priority."

def repeatMessage (r : Round) : Task → String
  | t@(.view ..) => "Repeated view request with generated name: " ++ (t.generated r).text ++ "."
  | t@(.metaType ..) => "Repeated meta request with generated name: " ++ (t.generated r).text ++ "."

def render (r : Round) (renderer : Renderer) : Task → Resolved Tokens
  | .view b request =>
    let v := r.resolveView b request
    { v with result := v.result.bind renderer.view }
  | .metaType b request => { result := (r.resolveMeta b request).bind renderer.metaType }

def outcome (r : Round) (t : Task) (state : OutcomeState) : Outcome where
  bearer := t.bearer.name
  kind := t.kind
  target := t.target
  generated := t.generated r
  state

end Task

/-- What a round changes: the names generated, the sink, and its record of what happened. -/
structure Progress (σ : Type) where
  generated : GeneratedNames
  sink : σ
  outcomes : List Outcome := []
  diagnostics : List Diagnostic := []
deriving DecidableEq, Repr, Inhabited

structure Report where
  outcomes : List Outcome := []
  diagnostics : List Diagnostic := []
deriving DecidableEq, Repr, Inhabited

namespace Report

def hasErrors (r : Report) : Bool :=
  r.diagnostics.any (·.isError)

def rendered (r : Report) : List TypeName :=
  (r.outcomes.filter (·.state == .rendered)).map (·.generated)

/-- The errors of the round as one failure, if there are any. -/
def failure? (r : Report) : Option Failure :=
  if r.hasErrors then some (.failed ((r.diagnostics.filter (·.isError)).map (·.display))) else none

end Report

variable {σ : Type}

namespace Progress

def finish (p : Progress σ) (o : Outcome) (ds : List Diagnostic) : Progress σ :=
  { p with outcomes := p.outcomes ++ [o], diagnostics := p.diagnostics ++ ds }

def report (p : Progress σ) : Report :=
  ⟨p.outcomes, p.diagnostics⟩

/-- The text that has ended the round. -/
def aborted? (p : Progress σ) : Option String :=
  p.outcomes.findSome? (·.state.abort?)

/-- The report, which there is unless the round has ended early. -/
def report? (p : Progress σ) : Option Report :=
  if p.aborted?.isSome then none else some p.report

end Progress

namespace Round

/-- Hands a finished unit to the sink and notes its name; a failure on the way, or before, becomes
an error of the bearer. -/
def emit (r : Round) (sink : Sink σ) (t : Task) (rendered : Resolved Tokens) (p : Progress σ) :
    Progress σ :=
  let name := t.generated r
  let fail (p : Progress σ) (f : Failure) : Progress σ :=
    p.finish (t.outcome r .failed)
      (rendered.diagnostics ++ [.error t.bearer.name t.target f.message])
  match rendered.result with
  | .error (.abort text) => p.finish (t.outcome r (.aborted text)) []
  | .error f => fail p f
  | .ok tokens =>
    match sink.emit p.sink name tokens with
    | (.error f, s) => fail { p with sink := s } (.emit name f)
    | (.ok (), s) =>
      { p with sink := s, generated := p.generated.insert name }.finish (t.outcome r .rendered)
        rendered.diagnostics

/-- Carries out one request. -/
def step (r : Round) (renderer : Renderer) (sink : Sink σ) (p : Progress σ) (t : Task) :
    Progress σ :=
  match t.deferredTo? r with
  | some winner =>
    p.finish (t.outcome r (.deferred winner))
      [.warning t.bearer.name t.target (t.deferralMessage r winner)]
  | none =>
    if p.generated.contains (t.generated r) then
      p.finish (t.outcome r .duplicate) [.warning t.bearer.name t.target (t.repeatMessage r)]
    else r.emit sink t (t.render r renderer) p

/-- Carries out one request, unless the round has ended with one before. -/
def proceed (r : Round) (renderer : Renderer) (sink : Sink σ) (p : Progress σ) (t : Task) :
    Progress σ :=
  if p.aborted?.isSome then p else r.step renderer sink p t

/-- Carries out all requests of the round, or those up to one that ends it. -/
def run (r : Round) (renderer : Renderer) (sink : Sink σ) (generated : GeneratedNames) (s : σ) :
    Progress σ :=
  (Task.ofBearers r.bearers).foldl (r.proceed renderer sink) { generated, sink := s }

end Round

end RecordViews
