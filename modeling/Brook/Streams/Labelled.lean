import Brook.Streams.Served

namespace Brook.Streams

/-! What an offer says a stream shows, and what its publisher shows there. -/

/-- The publisher still shows on the stream what the offer says. -/
def Call.current (call : Call) (entry : Offered) : Bool :=
  entry.participant ∈ call.participants ∧
    (call.people.get? entry.participant).any fun owner =>
      owner.feedId = entry.stream.1 ∧
        owner.streamSources.get? entry.stream.2 = some entry.source

/-- The participant's last offer is current on the given streams. -/
def Call.labelled (call : Call) (row : Participant) (streams : Finset Stream) : Bool :=
  row.offered.all fun offer =>
    offer.streams.all fun entry => entry.stream ∉ streams ∨ call.current entry

/-- A reconcile that ends without an offer leaves no stale label. -/
def Action.tells (call : Call) : Action → Bool
  | .lock task =>
      match call.tasks.get? task with
      | some (.reconcile p) =>
          (call.people.get? p).all fun row =>
            p ∉ call.participants ∨ row.subPending.isSome ∨ call.desired p ≠ row.subStreams ∨
              call.labelled row row.subStreams
      | _ => true
  | .subscribed p _ none => (call.people.get? p).all fun row => call.labelled row row.aim
  | _ => true

/-- The streams that the list has, as they are subscribed to. -/
def streamsListed (streams : List Listed) : Finset Stream :=
  (streams.map fun listed => (listed.feed, listed.feedMid)).toFinset

/-- An offer of Janus lists every stream that is subscribed to. -/
def Action.lists (call : Call) : Action → Bool
  | .subscribed p _ (some streams) =>
      (call.people.get? p).all fun row => row.aim ⊆ streamsListed streams
  | .lock task =>
      match call.tasks.get? task with
      | some (.offer p streams) =>
          (call.people.get? p).all fun row => row.subStreams ⊆ streamsListed streams
      | _ => true
  | _ => true

variable {call next : Call} {p q : ParticipantId} {id : TaskId} {row : Participant}
  {entry : Offered} {action : Action}

theorem current_iff : call.current entry = true ↔ entry.participant ∈ call.participants ∧
    ∃ owner, call.people.get? entry.participant = some owner ∧
      owner.feedId = entry.stream.1 ∧
      owner.streamSources.get? entry.stream.2 = some entry.source := by
  simp [Call.current, Option.any_eq_true]

theorem labelled_iff {streams : Finset Stream} : call.labelled row streams = true ↔
    ∀ offer, row.offered = some offer → ∀ entry ∈ offer.streams, entry.stream ∈ streams →
      call.current entry = true := by
  simp only [Call.labelled, Option.all_eq_true, List.all_eq_true, decide_eq_true_eq,
    ← imp_iff_not_or]

def Told : Good := fun call _ row =>
  row.busy = true ∨ call.labelled row row.subStreams = true

theorem Shows.current (shows : Shows call next) (current : call.current entry = true) :
    next.current entry = true := by
  obtain ⟨member, owner, found, feed, source⟩ := current_iff.mp current
  have shown := shows.shown entry.participant member
  rw [found, Option.map_some, Option.map_eq_some_iff] at shown
  obtain ⟨later, there, same⟩ := shown
  simp only [Participant.shown, Prod.mk.injEq] at same
  refine current_iff.mpr ⟨shows.participants ▸ member, later, there, ?_, ?_⟩
  · rw [same.1, feed]
  · rw [same.2.2, source]

theorem Shows.labelled (shows : Shows call next) {later : Participant}
    (offered : later.offered = row.offered) {streams : Finset Stream}
    (labelled : call.labelled row streams = true) : next.labelled later streams = true := by
  rw [labelled_iff] at labelled ⊢
  rw [offered]
  exact fun offer made entry listed there =>
    shows.current (labelled offer made entry listed there)

theorem steady_told : Steady Told where
  kept {call next p row later} shows like told := by
    refine told.imp (fun busy => like.busy.trans busy) fun labelled => ?_
    rw [like.subStreams]
    exact shows.labelled like.offered labelled

/-- An offer gives a stream that may be subscribed to the source its publisher shows. -/
theorem describe_current (sound : Sound call) {listed : Listed}
    (described : call.describe listed = some entry) (desired : entry.stream ∈ call.desired p) :
    call.current entry = true := by
  rw [Call.describe] at described
  split at described
  case h_2 => cases described
  case h_1 owner kind byFeed _ =>
    split at described
    case isFalse => cases described
    case isTrue =>
      cases described
      obtain ⟨q, member, -, streams⟩ := mem_desired.mp desired
      obtain ⟨other, found, -, feed, source⟩ := mem_streamsOf.mp streams
      have there := List.find?_some byFeed
      rw [Call.hasFeed, Option.any_eq_true] at there
      obtain ⟨row, owned, sameFeed⟩ := there
      have inside : owner ∈ call.participants :=
        List.mem_reverse.mp (List.mem_of_find?_eq_some byFeed)
      -- The stream is in the set, so its owner in the set is the one that the feed names.
      have same : owner = q :=
        sound.feeds owner inside q member row other owned found
          ((of_decide_eq_true sameFeed).trans feed.symm)
      subst same
      cases owned.symm.trans found
      obtain ⟨shown, is⟩ := Table.contains_iff.mp source
      refine current_iff.mpr ⟨inside, other, found, feed, ?_⟩
      simp only [found, Option.bind_some, is, Option.getD_some]

theorem Sound.labelled (sound : Sound call) {version : Nat} {streams : List Listed}
    (offered : row.offered = some ⟨version, streams.filterMap call.describe⟩) :
    call.labelled row (call.desired p) = true := by
  rw [labelled_iff]
  intro offer made entry listed there
  rw [offered] at made
  cases made
  obtain ⟨_, -, described⟩ := List.mem_filterMap.mp listed
  exact describe_current sound described there

theorem reconcile_told (found : call.people.get? p = some row) (member : p ∈ call.participants)
    (labelled : row.subPending.isSome = false → call.desired p = row.subStreams →
      call.labelled row row.subStreams = true) :
    ∀ later, (call.reconcile p row).people.get? p = some later →
      Told (call.reconcile p row) p later ∨ Woken (call.reconcile p row) p := by
  intro later there
  rw [Call.reconcile, if_neg (not_not_intro member)] at there ⊢
  split at there
  case isTrue pending =>
    right
    rw [if_pos pending]
    refine ⟨Or.inr ⟨later, there, ?_⟩⟩
    rw [get?_update, found, Option.map_some, if_pos rfl] at there
    cases there
    simp [Participant.deferred, pending]
  case isFalse answered =>
    rw [if_neg answered]
    left
    split at there
    case isTrue same =>
      rw [if_pos same]
      cases found.symm.trans there
      exact Or.inr (labelled (Bool.eq_false_iff.mpr answered) same)
    case isFalse =>
      left
      split at there <;>
      · rw [Call.hold, get?_update, found, Option.map_some, if_pos rfl] at there
        cases there
        rfl

theorem offer_told (sound : Sound call) (found : call.people.get? p = some row)
    {streams : List Listed} (settled : Settled (call.offer p streams) p) :
    ∀ later, (call.offer p streams).people.get? p = some later →
      Told (call.offer p streams) p later ∨ Woken (call.offer p streams) p := by
  intro later there
  refine (settled later there).imp (fun fair => Or.inr ?_) fun woken => woken
  have shows : Shows call (call.offer p streams) := .update fun _ => rfl
  rw [Fair, shows.desired p] at fair
  rw [Call.offer, get?_update, found, Option.map_some, if_pos rfl] at there
  cases there
  refine shows.labelled rfl ?_
  rw [show row.subStreams = call.desired p from fair]
  exact sound.labelled rfl

theorem subscribed_told (sound : Sound call) (found : call.people.get? p = some row)
    {desired : Finset Stream} (offer : Option (List Listed))
    (labelled : offer = none → call.labelled row desired = true)
    (settled : Settled (call.subscribed p desired offer) p) :
    ∀ later, (call.subscribed p desired offer).people.get? p = some later →
      Told (call.subscribed p desired offer) p later ∨
        Woken (call.subscribed p desired offer) p := by
  have taken : (call.update p (.taken desired)).people.get? p = some (row.taken desired) := by
    rw [get?_update, found, Option.map_some, if_pos rfl]
  cases offer with
  | none =>
      intro later there
      cases taken.symm.trans there
      have shows : Shows call (call.update p (.taken desired)) := .update fun _ => rfl
      exact Or.inl (Or.inr (shows.labelled rfl (labelled rfl)))
  | some streams =>
      have takenSound : Sound (call.update p (.taken desired)) := sound.update fun _ => rfl
      exact offer_told takenSound taken settled

theorem told_settles (awake : Awake Fair call none) (succeeds : action.succeeds = true)
    (tells : action.tells call = true) (stepped : step call action = some next)
    (settles : action.settles call = some p) (member : p ∈ call.participants) :
    ∀ later, next.people.get? p = some later → Told next p later ∨ Woken next p := by
  have settled := awake.settles succeeds stepped settles member
  refine settles_cases stepped settles succeeds ?_ ?_ ?_
  · rintro id row rfl task found - rfl
    refine reconcile_told found member fun answered same => ?_
    have labelled : call.labelled row row.subStreams = true := by
      simpa [Action.tells, task, found, member, answered, show call.desired p = _ from same]
        using tells
    exact labelled
  · rintro id streams row - - found - rfl
    exact offer_told (awake.sound.ends id) found settled
  · rintro row desired streams rfl found - aim rfl
    refine subscribed_told awake.sound found streams (fun none => ?_) settled
    subst none
    rw [← aim]
    simpa [Action.tells, found] using tells

structure Telling (call : Call) : Prop where
  fair : Awake Fair call none
  told : Awake Told call none

theorem Telling.step (telling : Telling call) (succeeds : action.succeeds = true)
    (tells : action.tells call = true) (stepped : Streams.step call action = some next) :
    Telling next := by
  refine ⟨telling.fair.step_fair succeeds stepped, ?_⟩
  have others := telling.told.step steady_told succeeds stepped
  cases settles : action.settles call with
  | none => rwa [settles] at others
  | some p =>
      rw [settles] at others
      refine others.seen fun member => ?_
      rw [settles_participants stepped settles succeeds] at member
      exact told_settles telling.fair succeeds tells stepped settles member

def micOffered : Offered := ⟨(10, "1"), 0, .audio, .mic⟩

/-- The camera is stopped, and the screen shown on its mid, before the offer is answered. -/
def screenForCamera : List Action :=
  twoJoin ++
    [.publish 0 [⟨"0", some .video, true⟩] none, .configured 5 true, .announced 5, .lock 6, .lock 7,
      .media 0 true, .lock 8, .lock 9, .attached 1 true,
      .subscribed 1 true (some [⟨10, "0", true, some .video⟩]), .sent 1,
      .publish 0 [⟨"0", some .video, false⟩] (some []), .configured 10 true, .announced 10,
      .lock 11, .lock 12,
      .publish 0 [⟨"0", some .video, true⟩] (some [⟨"0", some .video, some .screen⟩]),
      .configured 13 true, .announced 13, .lock 14, .lock 15,
      .answer 1 1, .lock 16, .started 1 true, .lock 17]

end Brook.Streams
