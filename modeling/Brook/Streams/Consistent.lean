import Brook.Streams.Published
import Mathlib.Data.List.Chain

namespace Brook.Streams

/-! Every offer of a participant, with what it left behind. -/

open Ws (Json)

/-- An accepted offer, and the sources from then on. -/
structure Accepted where
  mlines : List MLine
  sources : Sources

def Accepted.mids (accepted : Accepted) : List Mid := accepted.mlines.map (·.mid)

/-- The active audio and video m-line of this mid and kind is in the offer. -/
def Sends (mlines : List MLine) (mid : Mid) (kind : Kind) : Prop :=
  ⟨mid, some kind, true⟩ ∈ mlines

/-- The sources are of the offer's streams, each of its kind, and one at most is a screen. -/
structure Accepted.Consistent (accepted : Accepted) : Prop where
  mids : ∀ mid, (∃ source, accepted.sources.get? mid = some source) ↔
    ∃ kind, Sends accepted.mlines mid kind
  valid : ∀ mid kind source, Sends accepted.mlines mid kind →
    accepted.sources.get? mid = some source → source ∈ kind.sources
  screen : ∀ mid other, accepted.sources.get? mid = some .screen →
    accepted.sources.get? other = some .screen → mid = other

/-- A mid that is active in both offers keeps its source. -/
def Accepted.Keeps (later earlier : Accepted) : Prop :=
  ∀ mid kind old, Sends later.mlines mid kind → Sends earlier.mlines mid old →
    later.sources.get? mid = earlier.sources.get? mid

/-- The offers have the same mid at each index that both have. -/
def Accepted.Aligned (accepted other : Accepted) : Prop :=
  ∀ (i : Nat) (mid alsoMid : Mid), accepted.mids[i]? = some mid →
    other.mids[i]? = some alsoMid → mid = alsoMid

/-- A participant, with the accepted offers from the last on. -/
structure Session where
  publisher : Publisher
  accepted : List Accepted

def Session.start : Session := ⟨.joined, []⟩

def Session.publish (repr : Json → String) (session : Session) (offer : PublishOffer) : Session :=
  let published := session.publisher.publish repr offer
  match published.2 with
  | .error _ => ⟨published.1, session.accepted⟩
  | .ok _ => ⟨published.1, ⟨offer.mlines, published.1.streamSources⟩ :: session.accepted⟩

def publishStep (repr : Json → String) (session : Session) (offer : PublishOffer) :
    Option Session :=
  some (session.publish repr offer)

/-- The labels are consistent in the last accepted offer and in each one before it. -/
structure Session.Consistent (session : Session) : Prop where
  current : ∀ last ∈ session.accepted.head?, session.publisher.streamSources = last.sources
  offers : ∀ accepted ∈ session.accepted, accepted.Consistent
  keeps : session.accepted.IsChain Accepted.Keeps
  aligned : ∀ accepted ∈ session.accepted, ∀ other ∈ session.accepted, accepted.Aligned other

/-- No later audio or video m-line of the offer takes the mid of an active one with another
kind, or parked. -/
def PublishOffer.Distinct (offer : PublishOffer) : Prop :=
  ∀ mid kind, Sends offer.mlines mid kind → (mediaOf offer.mlines).get? mid = some (kind, true)

/-- Without labels, each active mid that has a source is still of its kind. -/
def PublishOffer.KeepsKinds (offer : PublishOffer) (current : Sources) : Prop :=
  offer.tracks = .null → ∀ mid kind source,
    (mediaOf offer.mlines).get? mid = some (kind, true) → current.get? mid = some source →
      source.kind = kind

/-- Beyond the m-lines of the last accepted offer come the mids that earlier ones had there. -/
def PublishOffer.Returns (offer : PublishOffer) (session : Session) : Prop :=
  ∀ earlier ∈ session.accepted, ∀ (i : Nat) (mid old : Mid),
    session.publisher.pubMids.length ≤ i → offer.mids[i]? = some mid →
      earlier.mids[i]? = some old → mid = old

/-- What an offer that the checks let through has to be. -/
def Session.Fits (repr : Json → String) (session : Session) (offer : PublishOffer) : Prop :=
  session.publisher.accepts repr offer = true →
    offer.Distinct ∧ offer.KeepsKinds session.publisher.streamSources ∧ offer.Returns session

variable {repr : Json → String} {session next : Session} {offer : PublishOffer}
  {mid : Mid} {kind : Kind}

theorem recycled_eq_none {old new : List Mid} : recycled old new = none ↔
    ∀ (i : Nat) (mid alsoMid : Mid), old[i]? = some mid → new[i]? = some alsoMid →
      mid = alsoMid := by
  simp only [recycled, List.find?_eq_none, Prod.forall, List.mem_zipIdx_iff_getElem?,
    List.getElem?_zip_eq_some, decide_eq_true_eq, not_not, and_imp]
  exact ⟨fun same i mid alsoMid => same mid alsoMid i, fun same mid alsoMid i => same i mid alsoMid⟩

theorem tracksOf_eq_none {tracks : Json} (given : tracksOf repr tracks = some none) :
    tracks = .null := by
  cases tracks with
  | null => rfl
  | arr items =>
      simp only [tracksOf] at given
      split at given
      · cases given
      · cases given
  | _ => cases given

/-- The session after the offer is accepted. -/
structure Session.Takes (session : Session) (offer : PublishOffer) (next : Session) where
  sources : Sources
  tracks : Option (List Track)
  labelled : Labelled offer.mlines tracks session.publisher.streamSources sources
  unlabelled : tracks = none → offer.tracks = .null
  same : recycled session.publisher.pubMids offer.mids = none
  accepted : next.accepted = ⟨offer.mlines, sources⟩ :: session.accepted
  streamSources : next.publisher.streamSources = sources
  pubMids : next.publisher.pubMids = offer.mids

theorem publish_cases (repr : Json → String) (session : Session) (offer : PublishOffer) :
    session.publisher.accepts repr offer = false ∧ session.publish repr offer = session ∨
      session.publisher.accepts repr offer = true ∧
        Nonempty (session.Takes offer (session.publish repr offer)) := by
  unfold Session.publish
  cases outcome : (session.publisher.publish repr offer).2 with
  | error refused =>
      refine Or.inl ⟨?_, ?_⟩
      · rw [Bool.eq_false_iff]
        intro accepts
        obtain ⟨same, ⟨sources, given⟩, answer, answered⟩ := accepts_iff.mp accepts
        simp [Publisher.publish, same, given, answered] at outcome
      · simp [outcome, publish_refused outcome]
  | ok answer =>
      obtain ⟨same, answered, given, mids⟩ := publish_accepted outcome
      obtain ⟨tracks, read, labels⟩ := Option.bind_eq_some_iff.mp given
      refine Or.inr ⟨accepts_iff.mpr ⟨same, ⟨_, given⟩, answer, answered⟩, ⟨?_⟩⟩
      simp only [outcome]
      exact ⟨_, tracks, labelled_of_labelStreams labels,
        fun none => tracksOf_eq_none (none ▸ read), same, rfl, rfl, mids⟩

/-- What the participant has is what the last accepted offer left. -/
structure Session.Inv (session : Session) : Prop where
  consistent : session.Consistent
  unpublished : session.accepted = [] → session.publisher = .joined
  mids : ∀ last ∈ session.accepted.head?, session.publisher.pubMids = last.mids

theorem inv_start : Session.start.Inv where
  consistent := ⟨fun _ last => (nomatch last), fun _ none => (nomatch none), .nil,
    fun _ none => (nomatch none)⟩
  unpublished _ := rfl
  mids _ last := nomatch last

/-- A mid that the last accepted offer has at an index is the one that all have there. -/
theorem Session.Inv.mid_eq (inv : session.Inv) {earlier : Accepted}
    (member : earlier ∈ session.accepted) {i : Nat} {old mid : Mid}
    (there : session.publisher.pubMids[i]? = some mid) (before : earlier.mids[i]? = some old) :
    mid = old := by
  cases accepted : session.accepted with
  | nil =>
      rw [accepted] at member
      exact nomatch member
  | cons last rest =>
      have head : last ∈ session.accepted.head? := by simp [accepted]
      rw [inv.mids last head] at there
      exact inv.consistent.aligned last (by simp [accepted]) earlier member i mid old there before

theorem Session.Inv.one_screen (inv : session.Inv) {mid other : Mid}
    (shown : session.publisher.streamSources.get? mid = some .screen)
    (alsoShown : session.publisher.streamSources.get? other = some .screen) : mid = other := by
  cases accepted : session.accepted with
  | nil =>
      rw [inv.unpublished accepted] at shown
      exact nomatch shown
  | cons last rest =>
      have head : last ∈ session.accepted.head? := by simp [accepted]
      rw [inv.consistent.current last head] at shown alsoShown
      exact (inv.consistent.offers last (by simp [accepted])).screen mid other shown alsoShown

/-- An accepted offer that fits is labelled as it should be. -/
theorem consistent_of_fits (inv : session.Inv) (takes : session.Takes offer next)
    (distinct : offer.Distinct) (kinds : offer.KeepsKinds session.publisher.streamSources) :
    Accepted.Consistent ⟨offer.mlines, takes.sources⟩ where
  mids mid := by
    rw [takes.labelled.mids mid]
    exact ⟨fun ⟨kind, kept⟩ => ⟨kind, mem_of_mediaOf kept⟩,
      fun ⟨kind, sends⟩ => ⟨kind, distinct mid kind sends⟩⟩
  valid mid kind source sends shown := by
    have kept := distinct mid kind sends
    rcases takes.labelled.valid mid kind source kept shown with valid | ⟨none, live⟩
    · exact valid
    · exact mem_sources.mpr (kinds (takes.unlabelled none) mid kind source kept live)
  screen mid other shown alsoShown := by
    rcases takes.labelled.screen mid other shown alsoShown with same | ⟨live, alsoLive⟩
    · exact same
    · exact inv.one_screen live alsoLive

theorem keeps_of_takes (inv : session.Inv) (takes : session.Takes offer next)
    (consistent : Accepted.Consistent ⟨offer.mlines, takes.sources⟩) {last : Accepted}
    (head : last ∈ session.accepted.head?) :
    Accepted.Keeps ⟨offer.mlines, takes.sources⟩ last := by
  intro mid kind old sends before
  obtain ⟨source, shown⟩ := (consistent.mids mid).mpr ⟨kind, sends⟩
  have member : last ∈ session.accepted := List.mem_of_mem_head? head
  obtain ⟨earlier, live⟩ := ((inv.consistent.offers last member).mids mid).mpr ⟨old, before⟩
  have kept := takes.labelled.kept mid source earlier shown
    (inv.consistent.current last head ▸ live)
  exact shown.trans (kept ▸ live.symm)

theorem aligned_of_takes (inv : session.Inv) (takes : session.Takes offer next)
    (returns : offer.Returns session) {earlier : Accepted}
    (member : earlier ∈ session.accepted) :
    Accepted.Aligned ⟨offer.mlines, takes.sources⟩ earlier := by
  intro i mid old there before
  by_cases within : i < session.publisher.pubMids.length
  · have pinned : session.publisher.pubMids[i]? = some session.publisher.pubMids[i] :=
      List.getElem?_eq_getElem within
    rw [← recycled_eq_none.mp takes.same i _ mid pinned there]
    exact inv.mid_eq member pinned before
  · exact returns earlier member i mid old (Nat.le_of_not_lt within) there before

theorem inv_of_takes (inv : session.Inv) (takes : session.Takes offer next)
    (distinct : offer.Distinct) (kinds : offer.KeepsKinds session.publisher.streamSources)
    (returns : offer.Returns session) : next.Inv := by
  have consistent := consistent_of_fits inv takes distinct kinds
  refine ⟨⟨?_, ?_, ?_, ?_⟩, ?_, ?_⟩
  · intro last head
    obtain rfl : _ = last := by simpa [takes.accepted] using head
    exact takes.streamSources
  · rw [takes.accepted, List.forall_mem_cons]
    exact ⟨consistent, inv.consistent.offers⟩
  · rw [takes.accepted, List.isChain_cons]
    exact ⟨fun last head => keeps_of_takes inv takes consistent head, inv.consistent.keeps⟩
  · rw [takes.accepted]
    simp only [List.forall_mem_cons]
    refine ⟨⟨?_, fun other member => aligned_of_takes inv takes returns member⟩,
      fun other member => ⟨?_, inv.consistent.aligned other member⟩⟩
    · intro i mid alsoMid there alsoThere
      exact Option.some.inj (there.symm.trans alsoThere)
    · intro i mid alsoMid there alsoThere
      exact (aligned_of_takes inv takes returns member i alsoMid mid alsoThere there).symm
  · intro none
    exact nomatch takes.accepted.symm.trans none
  · intro last head
    obtain rfl : _ = last := by simpa [takes.accepted] using head
    exact takes.pubMids

/-- An accepted offer that leaves the labels consistent fits. -/
theorem fits_of_consistent (takes : session.Takes offer next)
    (consistent : next.Consistent) :
    offer.Distinct ∧ offer.KeepsKinds session.publisher.streamSources ∧
      offer.Returns session := by
  have member : ⟨offer.mlines, takes.sources⟩ ∈ next.accepted := by simp [takes.accepted]
  have labels := consistent.offers _ member
  refine ⟨fun mid kind sends => ?_, fun _ mid kind source kept live => ?_,
    fun earlier before i mid old _ there alsoThere => ?_⟩
  · obtain ⟨source, shown⟩ := (labels.mids mid).mpr ⟨kind, sends⟩
    obtain ⟨other, kept⟩ := (takes.labelled.mids mid).mp ⟨source, shown⟩
    have valid := mem_sources.mp (labels.valid mid kind source sends shown)
    have alsoValid := mem_sources.mp
      (labels.valid mid other source (mem_of_mediaOf kept) shown)
    exact valid.symm.trans alsoValid ▸ kept
  · obtain ⟨shown, found⟩ := (takes.labelled.mids mid).mpr ⟨kind, kept⟩
    obtain rfl := takes.labelled.kept mid shown source found live
    exact mem_sources.mp (labels.valid mid kind shown (mem_of_mediaOf kept) found)
  · exact consistent.aligned _ member earlier
      (by rw [takes.accepted]; exact List.mem_cons_of_mem _ before) i mid old there alsoThere

/-- The labels stay consistent in exactly the sequences of offers in which each accepted
one fits; a refused one changes nothing. -/
theorem consistent_iff_fits (repr : Json → String) (offers : List PublishOffer) :
    (Transition.Throughout (publishStep repr) Session.Consistent .start offers ↔
      Transition.Along (publishStep repr) (Session.Fits repr) .start offers) ∧
    ∀ (p : Publisher) (offer : PublishOffer) (refused : Refused),
      (p.publish repr offer).2 = .error refused → (p.publish repr offer).1 = p := by
  refine ⟨Transition.throughout_iff_along (fun inv => inv.consistent) ?_ ?_ ?_ inv_start,
    fun _ _ _ => publish_refused⟩
  · rintro session offer next inv fits ⟨⟩
    rcases publish_cases repr session offer with ⟨_, same⟩ | ⟨accepts, ⟨takes⟩⟩
    · rw [same]
      exact inv
    · obtain ⟨distinct, kinds, returns⟩ := fits accepts
      exact inv_of_takes inv takes distinct kinds returns
  · rintro session offer next inv ⟨⟩ consistent accepts
    rcases publish_cases repr session offer with ⟨refuses, _⟩ | ⟨_, ⟨takes⟩⟩
    · exact nomatch refuses.symm.trans accepts
    · exact fits_of_consistent takes consistent
  · exact fun stopped => nomatch stopped

/-- A microphone's mid comes back as a camera's, both without labels. -/
def otherKind : List PublishOffer :=
  ["v=0\r\nm=audio 9 UDP/TLS/RTP/SAVPF 111\r\na=mid:0\r\na=sendonly\r\n",
    "v=0\r\nm=video 9 UDP/TLS/RTP/SAVPF 96\r\na=mid:0\r\na=sendonly\r\n"].map
      (⟨·, .null, some "v=0"⟩)

theorem camera_labelled_mic : ¬ ∀ (repr : Json → String) (offers : List PublishOffer),
    Transition.Throughout (publishStep repr) Session.Consistent .start offers := by
  intro all
  have last := (all (fun _ => "") otherKind).2.2
  have mislabelled : ∃ accepted ∈ (otherKind.foldl (Session.publish fun _ => "") .start).accepted,
      ⟨"0", some .video, true⟩ ∈ accepted.mlines ∧
        accepted.sources.get? "0" = some .mic := by decide +kernel
  obtain ⟨accepted, member, sends, shown⟩ := mislabelled
  exact absurd ((last.offers accepted member).valid "0" .video .mic sends shown) (by decide)

end Brook.Streams
