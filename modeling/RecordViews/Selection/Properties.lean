import RecordViews.Property
import RecordViews.Selection

/-!
The properties that a view starts from.
-/

namespace RecordViews

/-- All requests for views of `target` with the changes of `config`. -/
def contributing (bearers : List Bearer) (target config : TypeName) : List ViewRequest :=
  bearers.flatMap fun b => b.requests.filter fun r =>
    r.target.resolve b.name == target && r.config.resolve b.name == config

/-- The properties of the members that the requests choose together, with the accesses of the
request that the view is generated for. -/
def baseProperties (t : SourceType) (requests : List ViewRequest) (winner : ViewRequest) :
    Except Failure (List Property) := do
  let selection ← Selection.ofRequests requests
  return (t.members.filter fun m => selection.accepts m.name).map fun m =>
    Property.ofMember m winner.getters winner.setters

end RecordViews
