import RecordViews.Proofs.DiscoveryOrder
import RecordViews.Proofs.Histories

/-! Requests for different records, or for different kinds of units, do not disturb each other. What
a request is put off for, the members it shows and the changes it takes depend on requests of its
own kind and record only, and on the names and changes of all bearers. So a round without some kinds
and records adds what it added for the others, unless they shared a generated name, or one of those
left out ended the round. -/

namespace RecordViews

variable {gone : UnitKind → TypeName → Bool}

/-- The bearer without its requests of the kinds and records that are gone; its changes stay. -/
def Bearer.without (gone : UnitKind → TypeName → Bool) (b : Bearer) : Bearer :=
  { b with
    requests := b.requests.filter fun q => !gone .view (q.target.resolve b.name)
    metas := b.metas.filter fun q => !gone .metaType (q.target.resolve b.name) }

namespace Task

/-- The request, carried by the bearer that is left. -/
def without (gone : UnitKind → TypeName → Bool) : Task → Task
  | .view b q => .view (b.without gone) q
  | .metaType b q => .metaType (b.without gone) q

end Task

namespace Round

/-- The round without the requests of the kinds and records that are gone. -/
def without (gone : UnitKind → TypeName → Bool) (r : Round) : Round :=
  r.withBearers (r.bearers.map (·.without gone))

variable {r : Round}

end Round

end RecordViews
