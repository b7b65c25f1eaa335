import RecordViews.Round

/-!
Rounds one after the other, which share the names generated so far and the sink.
-/

namespace RecordViews

variable {σ : Type}

structure Session (σ : Type) where
  generated : GeneratedNames
  sink : σ
  reports : List Report := []
  /-- The text that has ended a round, and all of them with it. -/
  aborted : Option String := none
deriving DecidableEq, Repr, Inhabited

namespace Session

/-- Carries out a round, unless one before was ended. -/
def next (renderer : Renderer) (sink : Sink σ) (s : Session σ) (r : Round) : Session σ :=
  if s.aborted.isSome then s
  else
    let p := r.run renderer sink s.generated s.sink
    { generated := p.generated, sink := p.sink, reports := s.reports ++ p.report?.toList
      aborted := p.aborted? }

def run (renderer : Renderer) (sink : Sink σ) (s : Session σ) (rounds : List Round) : Session σ :=
  rounds.foldl (next renderer sink) s

end Session

end RecordViews
