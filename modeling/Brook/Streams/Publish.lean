import Brook.Streams.MLines
import Brook.Ws.Commands

namespace Brook.Streams

/-! One participant's publish offers, from their texts. -/

open Ws (Json)

/-- The fields of a participant that `publish` reads or sets. -/
structure Publisher where
  streamSources : Sources
  pubMids : List Mid
  publishing : List (Kind × Source)
  audio : Bool
  video : Bool
  audioIntent : Bool
  videoIntent : Bool

def Publisher.joined : Publisher := ⟨∅, [], [], false, false, true, true⟩

def Source.kind (source : Source) : Kind := if source = .mic then .audio else .video

/-- `refresh_media` -/
def Publisher.refreshMedia (p : Publisher) : Publisher :=
  { p with
    audio := p.audioIntent && p.streamSources.values.contains .mic
    video := p.videoIntent && p.streamSources.values.contains .camera }

/-- `str` of a JSON value; `repr` writes a float, a list or an object. -/
def strOf (repr : Json → String) : Json → String
  | .null => "None"
  | .bool value => if value then "True" else "False"
  | .int value => toString value
  | .str value => value
  | value => repr value

def sourceOf (name : String) : Option Source :=
  if name = "mic" then some .mic
  else if name = "camera" then some .camera
  else if name = "screen" then some .screen
  else none

def trackOf (repr : Json → String) (track : Json) : Track where
  mid := strOf repr ((track.get? "mid").getD .null)
  kind := ((track.get? "kind").bind Json.str?).bind fun name => kindOf name.toList
  source := ((track.get? "source").bind Json.str?).bind sourceOf

/-- `tracks` is absent, or a list of objects; anything else is `invalid`. -/
def tracksOf (repr : Json → String) : Json → Option (Option (List Track))
  | .null => some none
  | .arr items => if items.all Json.isObj then some (some (items.map (trackOf repr))) else none
  | _ => none

/-- The first m-line that has another mid than it had in the last accepted offer. -/
def recycled (pubMids mids : List Mid) : Option ((Mid × Mid) × Nat) :=
  (pubMids.zip mids).zipIdx.find? fun line => line.1.1 ≠ line.1.2

/-- Why an offer is refused: each is a `CallError("invalid", …)`, but that a label whose
source is a list or an object is a `TypeError`. -/
inductive Refused
  | recycled (line : Nat) (old new : Mid)
  | labels
  | rejected

/-- A `call.publish`, and the answer of Janus to its offer if there is one. -/
structure PublishOffer where
  sdp : String
  tracks : Json
  answer : Option String

def PublishOffer.mlines (offer : PublishOffer) : List MLine := parseMLines offer.sdp

def PublishOffer.mids (offer : PublishOffer) : List Mid := offer.mlines.map (·.mid)

/-- The labels that the offer's streams get, if its labels are valid. -/
def PublishOffer.sources (repr : Json → String) (offer : PublishOffer) (current : Sources) :
    Option Sources :=
  (tracksOf repr offer.tracks).bind fun tracks => labelStreams offer.mlines tracks current

/-- `publish` -/
def Publisher.publish (repr : Json → String) (p : Publisher) (offer : PublishOffer) :
    Publisher × Except Refused String :=
  match recycled p.pubMids offer.mids with
  | some line => (p, .error (.recycled line.2 line.1.1 line.1.2))
  | none =>
      match offer.sources repr p.streamSources with
      | none => (p, .error .labels)
      | some sources =>
          match offer.answer with
          | none => (p, .error .rejected)
          | some answer =>
              let p := { p with
                streamSources := sources
                pubMids := offer.mids
                publishing := sources.values.map fun source : Source => (source.kind, source) }
              (p.refreshMedia, .ok answer)

/-- `publish` takes the offer. -/
def Publisher.accepts (repr : Json → String) (p : Publisher) (offer : PublishOffer) : Bool :=
  (recycled p.pubMids offer.mids).isNone && (offer.sources repr p.streamSources).isSome &&
    offer.answer.isSome

variable {repr : Json → String} {p : Publisher} {offer : PublishOffer}

theorem publish_refused {refused : Refused}
    (given : (p.publish repr offer).2 = .error refused) : (p.publish repr offer).1 = p := by
  revert given
  unfold Publisher.publish
  cases recycled p.pubMids offer.mids with
  | some line => exact fun _ => rfl
  | none =>
      cases offer.sources repr p.streamSources with
      | none => exact fun _ => rfl
      | some sources =>
          cases offer.answer with
          | none => exact fun _ => rfl
          | some answer => exact fun given => nomatch given

theorem accepts_iff : p.accepts repr offer = true ↔ recycled p.pubMids offer.mids = none ∧
    (∃ sources, offer.sources repr p.streamSources = some sources) ∧
    ∃ answer, offer.answer = some answer := by
  simp [Publisher.accepts, Option.isSome_iff_exists, and_assoc]

theorem publish_accepted {answer : String}
    (given : (p.publish repr offer).2 = .ok answer) :
    recycled p.pubMids offer.mids = none ∧ offer.answer = some answer ∧
      offer.sources repr p.streamSources = some (p.publish repr offer).1.streamSources ∧
      (p.publish repr offer).1.pubMids = offer.mids := by
  revert given
  unfold Publisher.publish
  cases recycled p.pubMids offer.mids with
  | some line => exact fun given => nomatch given
  | none =>
      cases offer.sources repr p.streamSources with
      | none => exact fun given => nomatch given
      | some sources =>
          cases offer.answer with
          | none => exact fun given => nomatch given
          | some answer =>
              rintro ⟨⟩
              exact ⟨rfl, rfl, rfl, rfl⟩

end Brook.Streams
