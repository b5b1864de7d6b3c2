import Brook.Table.Basic

namespace Brook.Streams

/-! Which stream of a publish offer shows what. -/

abbrev Mid := String

inductive Kind
  | audio
  | video
deriving DecidableEq

inductive Source
  | mic
  | camera
  | screen
deriving DecidableEq

/-- `_SOURCES` -/
def Kind.sources : Kind → List Source
  | .audio => [.mic]
  | .video => [.camera, .screen]

/-- What a stream without a label shows. -/
def Kind.usual : Kind → Source
  | .audio => .mic
  | .video => .camera

/-- An m-line of an offer, with its kind if it is audio or video. -/
structure MLine where
  mid : Mid
  kind : Option Kind
  active : Bool
deriving DecidableEq

/-- A label as the client gives it: anything it names that does not exist is `none`. -/
structure Track where
  mid : Mid
  kind : Option Kind
  source : Option Source

/-- `stream_sources` -/
abbrev Sources := Table Mid Source

/-- The audio and video m-lines, each with its kind and whether it is active. -/
def mediaOf (mlines : List MLine) : Table Mid (Kind × Bool) :=
  (∅ : Table Mid (Kind × Bool)).putAll
    (mlines.filterMap fun line => line.kind.map fun kind => (line.mid, kind, line.active))

/-- The label names its m-line's kind, and a source of it. -/
def Track.fits (track : Track) (media : Table Mid (Kind × Bool)) : Bool :=
  (media.get? track.mid).any fun line =>
    track.kind = some line.1 ∧ track.source.any (· ∈ line.1.sources)

/-- The active streams, each with what `source` says. -/
def sourcesOf (media : Table Mid (Kind × Bool)) (source : Mid → Kind → Option Source) :
    Sources :=
  (∅ : Sources).putAll (media.rows.filterMap fun line =>
    if line.2.2 then (source line.1 line.2.1).map (line.1, ·) else none)

/-- `_label_streams`; `none` is `invalid`. -/
def labelStreams (mlines : List MLine) (tracks : Option (List Track)) (current : Sources) :
    Option Sources :=
  let media := mediaOf mlines
  match tracks with
  | none =>
      -- A live mid keeps its source.
      some (sourcesOf media fun mid kind => some ((current.get? mid).getD kind.usual))
  | some tracks =>
      let labels := (∅ : Table Mid Track).putAll (tracks.map fun track => (track.mid, track))
      let out := sourcesOf media fun mid _ => (labels.get? mid).bind (·.source)
      if labels.rows.length ≠ tracks.length ∨ ¬ tracks.all (media.contains ·.mid) then none
      else if media.rows.any fun line => line.2.2 ∧ ¬ labels.contains line.1 then none
      else if ¬ tracks.all (·.fits media) then none
      else if 1 < (out.values.filter (· = .screen)).length then none
      else if out.rows.any fun label => (current.get? label.1).any (· ≠ label.2) then none
      else some out

end Brook.Streams
