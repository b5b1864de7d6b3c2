import Brook.CallTask.Handlers
import Brook.Transition.Run

namespace Brook.CallTask

open Transition (run Throughout run_invariant_of_throughout)

/-! Every renegotiation that was asked for is offered in the end: whatever becomes of an offer,
somebody goes on with it. -/

/-- The last offer began after the last request that was answered with ok. -/
def Renewed (log : List Event) : Prop :=
  ∀ front back, log = front ++ .republished :: back → ∃ seq, .offering seq ∈ back

theorem Renewed.append {log more : List Event} (renewed : Renewed log)
    (silent : .republished ∉ more) : Renewed (log ++ more) := by
  intro front back split
  rcases List.append_eq_append_iff.mp split with ⟨mid, rfl, at_more⟩ | ⟨mid, rfl, at_back⟩
  · have mem : .republished ∈ more := by
      rw [at_more]
      exact List.mem_append_right _ List.mem_cons_self
    exact absurd mem silent
  · cases mid with
    | nil =>
        have mem : Event.republished ∈ more := by
          rw [← List.nil_append more, ← at_back]
          exact List.mem_cons_self
        exact absurd mem silent
    | cons first mid =>
        rw [List.cons_append, List.cons.injEq] at at_back
        obtain ⟨rfl, rfl⟩ := at_back
        obtain ⟨seq, mem⟩ := renewed front mid rfl
        exact ⟨seq, List.mem_append_left _ mem⟩

theorem renewed_offering (log : List Event) (seq : Nat) : Renewed (log ++ [.offering seq]) := by
  intro front back split
  refine ⟨seq, ?_⟩
  rcases List.append_eq_append_iff.mp split with ⟨mid, rfl, at_end⟩ | ⟨mid, rfl, at_back⟩
  · cases mid with
    | nil => cases at_end
    | cons first mid => simp at at_end
  · cases mid with
    | nil => cases at_back
    | cons first mid =>
        rw [List.cons_append, List.cons.injEq] at at_back
        rw [at_back.2]
        exact List.mem_append_right _ (List.mem_singleton_self _)

/-- The offer that the work is about. -/
def Work.offer : Work → Option Nat
  | .publishOffer seq => some seq
  | .publishAnswer _ seq => some seq
  | .publishApplied seq _ => some seq
  | _ => none

/-- Where a call is with its publishing. -/
structure Publishing where
  generation : Nat
  connected : Bool
  callId : String
  publishWanted : Bool
  publish : Publish
  republishPending : Bool
  pubSeq : Nat
  unsentOffer : Option (Nat × PublishOffer)

def Task.publishing (task : Task) : Publishing :=
  ⟨task.generation, task.connected, task.callId, task.publishWanted, task.publish,
    task.republishPending, task.pubSeq, task.unsentOffer⟩

/-- A command that found the queue full. -/
def Event.refused : Event → Bool
  | .submitted _ (.error .busy) => true
  | _ => false

namespace World

/-- Nothing is under way, and the call was joined. -/
structure Quiescent (w : World) : Prop where
  works : w.works = []
  seen : w.seen = true
  joined : .joined ∈ w.log

/-- Nothing more is to be done for the publishing. -/
def Renegotiated (w : World) : Prop :=
  w.Quiescent → w.task.ended = false → w.task.connected = true →
    w.Up w.task.generation → w.task.publishWanted = true →
    w.task.publish = .stable ∧ Renewed w.log

/-- The command queue never refused anything. -/
def NeverFull (w : World) : Prop := ∀ event ∈ w.log, event.refused = false

instance (w : World) : Decidable w.NeverFull := inferInstanceAs (Decidable (∀ _ ∈ _, _))

/-- The numbers of offers and sockets are used up in order. -/
structure Numbered (w : World) : Prop where
  behind : w.task.generation ≤ w.conn.generation
  resumed : ∀ generation, .resumed generation ∈ w.works → generation ≤ w.conn.generation
  known : ∀ work ∈ w.works, ∀ seq, work.offer = some seq → seq ≤ w.task.pubSeq
  unsent : ∀ seq offer, w.task.unsentOffer = some (seq, offer) → seq ≤ w.task.pubSeq

/-- Somebody goes on with the publishing, at the latest the next resume. -/
structure Pending (w : World) : Prop extends Numbered w where
  idle : w.task.publish = .idle → w.task.publishWanted = true →
    .joined ∉ w.log ∧ w.task.callId = ""
  offering : ∀ seq, w.task.publish = .offering seq → seq = w.task.pubSeq ∧
    (∀ generation, .publishAnswer generation seq ∉ w.works) ∧
    (.publishOffer seq ∈ w.works ∨ ∃ offer, w.task.unsentOffer = some (seq, offer))
  awaiting : ∀ seq, w.task.publish = .awaitingAnswer seq →
    ∃ generation, .publishAnswer generation seq ∈ w.works
  applying : ∀ seq, w.task.publish = .applyingAnswer seq →
    ∃ sdp, .publishApplied seq sdp ∈ w.works
  renewed : w.task.republishPending = false → Renewed w.log

/-- A connected call does not need the next resume for it. -/
structure Driven (w : World) : Prop extends Pending w where
  sent : w.task.connected = true → w.Up w.task.generation →
    ∀ seq offer, w.task.publish = .offering seq → w.task.unsentOffer ≠ some (seq, offer)
  restarted : w.task.connected = true → w.Up w.task.generation →
    w.task.publish ≠ .needsRestart
  asked : w.task.connected = true → w.task.publish = .stable → w.task.republishPending = false
  answered : w.task.connected = true → ∀ seq generation, w.task.publish = .awaitingAnswer seq →
    .publishAnswer generation seq ∈ w.works → generation = w.task.generation

variable {w later : World}

/-! ### Handlers of other things -/

def notPublish : List Topic := [.subscribe, .media, .remote, .candidates]

abbrev KeepsPublishing (w later : World) : Prop := Keeps notPublish Task.publishing w later

/-- Nothing was added that matters to the publishing. -/
structure Aside (w later : World) : Prop where
  onward : w.Onward later
  works : ∀ work, work.topic = .publish ∨ work.topic = .resumed →
    (work ∈ later.works ↔ work ∈ w.works)
  log : ∃ more, later.log = w.log ++ more ∧ .republished ∉ more ∧ .joined ∉ more

theorem Aside.of_moves (moves : w.Moves notPublish later) : w.Aside later where
  onward := moves.onward
  works work topic := by
    apply moves.mem_iff
    rcases topic with topic | topic
    · rw [topic]
      decide
    · rw [topic]
      decide
  log := by
    obtain ⟨more, log, all⟩ := moves.log
    refine ⟨more, log, fun mem => ?_, fun mem => ?_⟩
    · have about := all _ mem
      cases about
    · have about := all _ mem
      cases about

theorem Aside.trans {last : World} (first : w.Aside later) (second : later.Aside last) :
    w.Aside last where
  onward := first.onward.trans second.onward
  works work topic := (second.works work topic).trans (first.works work topic)
  log := by
    obtain ⟨more, later_log, not_asked, not_joined⟩ := first.log
    obtain ⟨yet, last_log, yet_not_asked, yet_not_joined⟩ := second.log
    refine ⟨more ++ yet, by rw [last_log, later_log, List.append_assoc], ?_, ?_⟩
    · rw [List.mem_append]
      rintro (mem | mem)
      · exact not_asked mem
      · exact yet_not_asked mem
    · rw [List.mem_append]
      rintro (mem | mem)
      · exact not_joined mem
      · exact yet_not_joined mem

theorem Aside.task (w : World) (task : Task) : w.Aside { w with task := task } :=
  .of_moves (.task w task)

theorem Aside.submit (w : World) (out : Outgoing) : w.Aside (w.submit out).2 := by
  have about : out.frame.topic.all (· ∈ [.publish, .media, .candidates]) = true := by
    cases out.frame with
    | _ => rfl
  have moves := w.submit_moves out about
  refine ⟨moves.onward, fun work _ => by rw [submit_works], ?_⟩
  obtain ⟨more, log, all⟩ := moves.log
  refine ⟨more, log, fun mem => ?_, fun mem => ?_⟩
  · have about := all _ mem
    cases about
  · have about := all _ mem
    cases about

theorem Aside.of_task (aside : w.Aside later) (task : Task) :
    ({ w with task := task } : World).Aside later :=
  ⟨⟨aside.onward.generation, aside.onward.down, aside.onward.broken, aside.onward.seen⟩, aside.works, aside.log⟩

theorem topic_of_offer {work : Work} {seq : Nat} (offer : work.offer = some seq) :
    work.topic = .publish := by
  cases work with
  | publishOffer _ => rfl
  | publishAnswer _ _ => rfl
  | publishApplied _ _ => rfl
  | _ => cases offer

theorem Numbered.aside (numbered : w.Numbered) (aside : w.Aside later)
    (same : later.task.publishing = w.task.publishing) : later.Numbered := by
  simp only [Task.publishing, Publishing.mk.injEq] at same
  obtain ⟨generation, connected, callId, wanted, publish, pending, pubSeq, unsent⟩ := same
  refine ⟨?_, fun g mem => ?_, fun work mem seq offer => ?_, ?_⟩
  · rw [generation]
    exact Nat.le_trans numbered.behind aside.onward.generation
  · exact Nat.le_trans (numbered.resumed g ((aside.works _ (.inr rfl)).mp mem))
      aside.onward.generation
  · rw [pubSeq]
    exact numbered.known work ((aside.works _ (.inl (topic_of_offer offer))).mp mem) seq offer
  · rw [pubSeq, unsent]
    exact numbered.unsent

theorem Pending.aside (pending : w.Pending) (aside : w.Aside later)
    (same : later.task.publishing = w.task.publishing) : later.Pending := by
  have numbered := pending.toNumbered.aside aside same
  simp only [Task.publishing, Publishing.mk.injEq] at same
  obtain ⟨generation, connected, callId, wanted, publish, asked, pubSeq, unsent⟩ := same
  obtain ⟨more, log, not_asked, not_joined⟩ := aside.log
  refine ⟨numbered, ?_, ?_, ?_, ?_, ?_⟩
  · rw [publish, wanted, callId, log]
    intro idle is_wanted
    obtain ⟨unjoined, no_id⟩ := pending.idle idle is_wanted
    refine ⟨fun mem => ?_, no_id⟩
    exact (List.mem_append.mp mem).elim unjoined not_joined
  · intro seq offering
    rw [publish] at offering
    obtain ⟨newest, unanswered, out⟩ := pending.offering seq offering
    refine ⟨by rw [pubSeq]; exact newest, fun g mem => ?_, ?_⟩
    · exact unanswered g ((aside.works _ (.inl rfl)).mp mem)
    · rw [unsent]
      exact out.imp (aside.works _ (.inl rfl)).mpr id
  · intro seq awaiting
    rw [publish] at awaiting
    obtain ⟨g, mem⟩ := pending.awaiting seq awaiting
    exact ⟨g, (aside.works _ (.inl rfl)).mpr mem⟩
  · intro seq applying
    rw [publish] at applying
    obtain ⟨sdp, mem⟩ := pending.applying seq applying
    exact ⟨sdp, (aside.works _ (.inl rfl)).mpr mem⟩
  · rw [asked, log]
    exact fun none_asked => (pending.renewed none_asked).append not_asked

theorem Driven.aside (driven : w.Driven) (aside : w.Aside later)
    (same : later.task.publishing = w.task.publishing) : later.Driven := by
  have pending := driven.toPending.aside aside same
  simp only [Task.publishing, Publishing.mk.injEq] at same
  obtain ⟨generation, connected, callId, wanted, publish, asked, pubSeq, unsent⟩ := same
  have there (up : later.Up later.task.generation) : w.Up w.task.generation := by
    by_contra gone
    apply aside.onward.not_up driven.behind gone
    rwa [generation] at up
  refine ⟨pending, ?_, ?_, ?_, ?_⟩
  · intro up conn
    rw [publish, unsent]
    exact driven.sent (connected ▸ up) (there conn)
  · intro up conn
    rw [publish]
    exact driven.restarted (connected ▸ up) (there conn)
  · rw [connected, publish, asked]
    exact driven.asked
  · intro up seq g awaiting mem
    rw [generation]
    rw [publish] at awaiting
    exact driven.answered (connected ▸ up) seq g awaiting ((aside.works _ (.inl rfl)).mp mem)

/-! ### Offers -/

theorem startPublishOffer_driven (numbered : w.Numbered) : w.startPublishOffer.Driven := by
  have unknown (work : Work) (offer : work.offer = some (w.task.pubSeq + 1)) :
      work ∉ w.works := by
    intro mem
    exact absurd (numbered.known work mem _ offer) (Nat.not_succ_le_self _)
  refine ⟨⟨⟨numbered.behind, ?_, ?_, ?_⟩, nofun, ?_, nofun, nofun, ?_⟩, ?_, nofun, nofun, nofun⟩
  · intro g mem
    rcases List.mem_append.mp mem with mem | mem
    · exact numbered.resumed g mem
    · cases List.mem_singleton.mp mem
  · intro work mem seq offer
    rcases List.mem_append.mp mem with mem | mem
    · exact Nat.le_succ_of_le (numbered.known work mem seq offer)
    · cases List.mem_singleton.mp mem
      cases offer
      exact Nat.le_refl _
  · exact fun seq offer unsent => Nat.le_succ_of_le (numbered.unsent seq offer unsent)
  · rintro seq ⟨⟩
    refine ⟨rfl, fun g mem => ?_, .inl ?_⟩
    · rcases List.mem_append.mp mem with mem | mem
      · exact unknown _ rfl mem
      · cases List.mem_singleton.mp mem
    · exact List.mem_append_right _ (List.mem_singleton_self _)
  · exact fun _ => renewed_offering _ _
  · rintro - - seq offer ⟨⟩ unsent
    exact absurd (numbered.unsent _ _ unsent) (Nat.not_succ_le_self _)

theorem Aside.awaiting (w : World) (seq : Nat) : w.Aside (w.awaiting seq) :=
  (Aside.task w _).trans (.of_moves ((releaseCandidates_moves _).1.imp (by decide)))

theorem awaiting_task (w : World) (seq : Nat) : (w.awaiting seq).task = { w.task with
    publish := .awaitingAnswer seq
    pubCandidates := [] } := (releaseCandidates_moves _).2

/-- The answer to an offer is awaited on the socket that it was sent on. -/
theorem awaiting_driven {seq : Nat} {offer : PublishOffer}
    (pending : ({ w with task.unsentOffer := some (seq, offer) } : World).Pending)
    (unsent : ∀ seq offer, w.task.unsentOffer = some (seq, offer) → seq ≤ w.task.pubSeq)
    (offering : w.task.publish = .offering seq) (aside : w.Aside later)
    (task : later.task = { w.task with
      publish := .awaitingAnswer seq
      pubCandidates := [] }) :
    (later.spawn (.publishAnswer w.task.generation seq)).Driven := by
  obtain ⟨newest, unanswered, -⟩ := pending.offering seq offering
  have publish : later.task.publish = .awaitingAnswer seq := by rw [task]
  have generation : later.task.generation = w.task.generation := by rw [task]
  have pubSeq : later.task.pubSeq = w.task.pubSeq := by rw [task]
  have behind : w.task.generation ≤ later.conn.generation :=
    Nat.le_trans pending.behind aside.onward.generation
  have old {work : Work} (mem : work ∈ (later.spawn (.publishAnswer w.task.generation seq)).works)
      (topic : work.topic = .publish ∨ work.topic = .resumed) :
      work ∈ w.works ∨ work = .publishAnswer w.task.generation seq := by
    rcases List.mem_append.mp mem with mem | mem
    · exact .inl ((aside.works work topic).mp mem)
    · exact .inr (List.mem_singleton.mp mem)
  refine ⟨⟨⟨?_, fun g mem => ?_, fun work mem s about => ?_, fun s o kept => ?_⟩, fun idle => ?_,
    fun s offered => ?_, fun s awaiting => ?_, fun s applying => ?_, fun none_asked => ?_⟩,
    fun _ _ s o offered => ?_, fun _ _ needs => ?_, fun _ stable => ?_,
    fun _ s g awaiting mem => ?_⟩
  · rw [spawn_task, generation]
    exact behind
  · rcases old mem (.inr rfl) with mem | added
    · exact Nat.le_trans (pending.resumed g mem) aside.onward.generation
    · cases added
  · rw [spawn_task, pubSeq]
    rcases old mem (.inl (topic_of_offer about)) with mem | rfl
    · exact pending.known work mem s about
    · cases about
      exact Nat.le_of_eq newest
  · rw [spawn_task, pubSeq]
    rw [spawn_task, task] at kept
    exact unsent s o kept
  · rw [spawn_task, publish] at idle
    cases idle
  · rw [spawn_task, publish] at offered
    cases offered
  · rw [spawn_task, publish] at awaiting
    cases awaiting
    exact ⟨w.task.generation, List.mem_append_right _ (List.mem_singleton_self _)⟩
  · rw [spawn_task, publish] at applying
    cases applying
  · obtain ⟨more, log, not_asked, -⟩ := aside.log
    have was : w.task.republishPending = false := by
      rw [← none_asked, spawn_task, task]
    show Renewed later.log
    rw [log]
    exact (pending.renewed was).append not_asked
  · rw [spawn_task, publish] at offered
    cases offered
  · rw [spawn_task, publish] at needs
    cases needs
  · rw [spawn_task, publish] at stable
    cases stable
  · rw [spawn_task, publish] at awaiting
    cases awaiting
    rw [spawn_task, generation]
    rcases old mem (.inl rfl) with mem | added
    · exact absurd mem (unanswered g)
    · cases added
      rfl

/-- An offer that is sent is awaited, or waits itself for the next resume. -/
theorem sendPublish_driven {seq : Nat} {offer : PublishOffer}
    (pending : ({ w with task.unsentOffer := some (seq, offer) } : World).Pending)
    (unsent : ∀ seq offer, w.task.unsentOffer = some (seq, offer) → seq ≤ w.task.pubSeq)
    (offering : w.task.publish = .offering seq)
    (room : (w.sendPublish seq offer).NeverFull) : (w.sendPublish seq offer).Driven := by
  have submitted := Aside.submit w (w.offered seq offer)
  have submitted_task := w.submit_task (w.offered seq offer)
  have told := w.submit_told (w.offered seq offer)
  rcases w.sendPublish_cases seq offer with ⟨down, is⟩ | ⟨up, ok, is⟩ | ⟨up, ⟨err, failed⟩, is⟩
  · rw [is]
    refine ⟨pending, fun up => ?_, fun up => ?_, fun up => ?_, fun up => ?_⟩
    all_goals
      rw [show w.task.connected = true from up] at down
      cases down
  · rw [is]
    refine awaiting_driven pending unsent offering (submitted.trans (.awaiting _ seq)) ?_
    rw [awaiting_task, submitted_task]
  · rw [is] at room ⊢
    have aside := (submitted.of_task { w.task with unsentOffer := some (seq, offer) }).trans
      (.task _ { (w.submit (w.offered seq offer)).2.task with unsentOffer := some (seq, offer) })
    have kept := pending.aside aside (by rw [submitted_task])
    have publish : (w.submit (w.offered seq offer)).2.task.publish = .offering seq := by
      rw [submitted_task, offering]
    have gone : (w.submit (w.offered seq offer)).2.conn ≠ ⟨w.task.generation, true⟩ := by
      rcases w.submit_cases (w.offered seq offer) with ⟨ok, -⟩ | ⟨-, conn, same⟩ | ⟨busy, -⟩
      · rw [ok] at failed
        cases failed
      · rw [same]
        exact conn
      · rw [busy] at told
        cases room _ told
    refine ⟨kept, fun _ up => ?_, fun _ up => ?_, fun _ stable => ?_, fun _ s g awaiting => ?_⟩
    · have conn := up.1
      dsimp only at conn
      rw [submitted_task] at conn
      exact absurd conn gone
    · have conn := up.1
      dsimp only at conn
      rw [submitted_task] at conn
      exact absurd conn gone
    · rw [show (w.submit (w.offered seq offer)).2.task.publish = .stable from stable] at publish
      cases publish
    · rw [show (w.submit (w.offered seq offer)).2.task.publish = .awaitingAnswer s
        from awaiting] at publish
      cases publish

/-! ### The next offer -/

/-- Only an offer that was made while the socket was down may still wait. -/
structure Restarted (w : World) : Prop extends Pending w where
  settled : w.task.publish ≠ .needsRestart ∧ ∀ seq, w.task.publish ≠ .awaitingAnswer seq
  asked : w.task.publish = .stable → w.task.republishPending = false

theorem restartPublish_restarted (pending : w.Pending) : w.restartPublish.Restarted := by
  have started : w.startPublishOffer.Restarted :=
    ⟨(startPublishOffer_driven pending.toNumbered).toPending,
      ⟨fun needed => (by cases needed), fun _ awaiting => (by cases awaiting)⟩,
      fun stable => (by cases stable)⟩
  rw [restartPublish]
  split
  case h_1 => exact started
  case h_2 => exact started
  case h_3 stable =>
    split
    case isTrue => exact started
    case isFalse none_asked =>
      refine ⟨pending, ⟨?_, fun seq => ?_⟩, fun _ => by simpa using none_asked⟩
      · rw [stable]
        intro needed
        cases needed
      · rw [stable]
        intro awaiting
        cases awaiting
  case h_4 not_needed not_awaiting not_stable =>
    exact ⟨pending, ⟨not_needed, not_awaiting⟩, fun stable => absurd stable not_stable⟩

theorem resendOffer_driven (restarted : w.Restarted) (room : w.resendOffer.NeverFull) :
    w.resendOffer.Driven := by
  rw [resendOffer] at room ⊢
  split
  case h_1 seq offer unsent =>
    rw [unsent] at room
    dsimp only at room ⊢
    have kept : ({ w with task.unsentOffer := some (seq, offer) } : World) = w := by
      rw [← unsent]
    split
    case isTrue offering =>
      rw [if_pos offering] at room
      refine sendPublish_driven (w := { w with task.unsentOffer := none }) ?_ (fun _ _ waits => by cases waits)
        offering room
      dsimp only
      rw [kept]
      exact restarted.toPending
    case isFalse other =>
      refine ⟨⟨⟨restarted.behind, restarted.resumed, restarted.known,
          fun _ _ waits => (by cases waits)⟩, restarted.idle,
        fun s offered => ?_, restarted.awaiting, restarted.applying, restarted.renewed⟩,
        fun _ _ _ _ _ waits => (by cases waits), fun _ _ => restarted.settled.1, fun _ => restarted.asked,
        fun _ s _ awaiting => absurd awaiting (restarted.settled.2 s)⟩
      obtain ⟨newest, unanswered, out⟩ := restarted.offering s offered
      refine ⟨newest, unanswered, .inl (out.resolve_right ?_)⟩
      rintro ⟨o, waits⟩
      rw [unsent] at waits
      cases waits
      exact other offered
  case h_2 nothing =>
    refine ⟨restarted.toPending, fun _ _ s o _ waits => ?_, fun _ _ => restarted.settled.1,
      fun _ => restarted.asked, fun _ s _ awaiting => absurd awaiting (restarted.settled.2 s)⟩
    rw [nothing] at waits
    cases waits

/-- What waits for a publish to be over. -/
theorem startPending_driven (pending : w.Pending) (stable : w.task.publish = .stable) :
    w.task.ended = false → w.startPending.Driven := by
  intro going
  rw [startPending]
  split
  case isTrue => exact startPublishOffer_driven pending.toNumbered
  case isFalse not_due =>
    refine ⟨pending, fun _ _ s o offering => ?_, fun _ _ => ?_, fun up _ => ?_,
      fun _ s g awaiting => ?_⟩
    · rw [stable] at offering
      cases offering
    · rw [stable]
      intro needed
      cases needed
    · by_contra asked
      exact not_due ⟨by simpa using asked, up, going⟩
    · rw [stable] at awaiting
      cases awaiting

/-! ### Other handlers -/

theorem NeverFull.of_moves {topics : List Topic} (room : later.NeverFull)
    (moves : w.Moves topics later) : w.NeverFull := by
  obtain ⟨more, log, -⟩ := moves.log
  intro event mem
  apply room event
  rw [log]
  exact List.mem_append_left _ mem

/-- A call that goes on and was never refused a place is driven. -/
def Led (w : World) : Prop := w.NeverFull → w.task.ended = false → w.Driven

theorem Led.keeps (led : w.Led) (keeps : KeepsPublishing w later) : later.Led := by
  intro room going
  exact (led (room.of_moves keeps.moves) (keeps.going going)).aside (.of_moves keeps.moves) keeps.same

theorem led_of_ended (ended : w.task.ended = true) : w.Led := by
  intro _ going
  rw [ended] at going
  cases going

section Keeps

variable (w)

variable {w} in
theorem keepsPublishing_of_onlyMedia (moves : w.Moves [.media] later)
    (only : w.OnlyMedia later) : KeepsPublishing w later :=
  .of_onlyMedia moves (by decide) only fun _ _ _ => rfl

variable {w} in
theorem keepsPublishing_of_onlySub (moves : w.Moves [.subscribe] later)
    (only : ∃ sub, later.task = { w.task with sub := sub }) : KeepsPublishing w later :=
  .of_onlySub moves (by decide) only fun _ _ => rfl

theorem tell_keepsPublishing (caller : Option Caller) (answer : Answer) :
    KeepsPublishing w (w.tell caller answer) :=
  .of_moves (w.tell_moves _ _) (List.Subset.refl _) (by rw [tell_task]) (by rw [tell_task])

theorem flushRemote_keepsPublishing (pc : PcKind) : KeepsPublishing w (w.flushRemote pc) := by
  obtain ⟨moves, buf, ends⟩ := w.flushRemote_moves pc
  exact .of_ends moves (by decide) ends rfl rfl fun _ _ _ _ => rfl

/-- What comes after the offers of a resume. -/
theorem sendRetainedAnswer_keepsPublishing : KeepsPublishing w w.sendRetainedAnswer := by
  obtain ⟨moves, same⟩ := w.sendRetainedAnswer_moves
  exact keepsPublishing_of_onlySub moves ⟨_, same⟩

end Keeps

/-! ### Steps -/

/-- The result of the work is what the publishing waits for. -/
def Task.waitsFor (task : Task) : Work → Prop
  | .publishOffer seq => task.publish = .offering seq
  | .publishAnswer _ seq => task.publish = .awaitingAnswer seq
  | .publishApplied seq _ => task.publish = .applyingAnswer seq
  | _ => False

theorem Numbered.erase (numbered : w.Numbered) (work : Work) (fates : List Fate) :
    ({ w with
      fates := fates
      works := w.works.erase work } : World).Numbered where
  behind := numbered.behind
  resumed g mem := numbered.resumed g (List.mem_of_mem_erase mem)
  known other mem := numbered.known other (List.mem_of_mem_erase mem)
  unsent := numbered.unsent

theorem Pending.erase (pending : w.Pending) {work : Work} (fates : List Fate)
    (other : ¬ Task.waitsFor w.task work) :
    ({ w with
      fates := fates
      works := w.works.erase work } : World).Pending := by
  refine ⟨pending.toNumbered.erase work fates, pending.idle, fun seq offering => ?_,
    fun seq awaiting => ?_, fun seq applying => ?_, pending.renewed⟩
  · obtain ⟨newest, unanswered, out⟩ := pending.offering seq offering
    refine ⟨newest, fun g mem => unanswered g (List.mem_of_mem_erase mem), out.imp ?_ id⟩
    refine (List.mem_erase_of_ne ?_).mpr
    rintro rfl
    exact other offering
  · obtain ⟨g, mem⟩ := pending.awaiting seq awaiting
    refine ⟨g, (List.mem_erase_of_ne ?_).mpr mem⟩
    rintro rfl
    exact other awaiting
  · obtain ⟨sdp, mem⟩ := pending.applying seq applying
    refine ⟨sdp, (List.mem_erase_of_ne ?_).mpr mem⟩
    rintro rfl
    exact other applying

theorem Driven.erase (driven : w.Driven) {work : Work} (fates : List Fate)
    (other : ¬ Task.waitsFor w.task work) :
    ({ w with
      fates := fates
      works := w.works.erase work } : World).Driven :=
  ⟨driven.toPending.erase fates other, driven.sent, driven.restarted, driven.asked,
    fun up seq g awaiting mem => driven.answered up seq g awaiting (List.mem_of_mem_erase mem)⟩

/-- An offer came back from the engine. -/
theorem publishOffer_led {seq : Nat} {res : Except String PublishOffer} (driven : w.Driven)
    (fates : List Fate) :
    (({ w with
      fates := fates
      works := w.works.erase (.publishOffer seq) } : World).onDone (.publishOffer seq res)).Led := by
  simp only [onDone]
  split
  case isTrue stale =>
    refine fun _ _ => driven.erase fates fun offering => ?_
    have newest := (driven.offering seq offering).1
    exact stale.elim (fun other => other newest) fun other => other offering
  case isFalse due =>
    obtain ⟨newest, offering⟩ : seq = w.task.pubSeq ∧ w.task.publish = .offering seq := by
      simpa [not_or] using due
    cases res with
    | error message => exact led_of_ended (finish_ended _ _ _)
    | ok offer =>
        refine fun room _ => sendPublish_driven ?_ driven.unsent offering room
        have numbered := driven.toNumbered.erase (.publishOffer seq) fates
        refine ⟨⟨numbered.behind, numbered.resumed, numbered.known, ?_⟩, driven.idle,
          fun s offered => ?_, fun s awaiting => ?_, fun s applying => ?_, driven.renewed⟩
        · rintro s o ⟨⟩
          exact Nat.le_of_eq newest
        · obtain ⟨is_newest, unanswered, -⟩ := driven.offering s offered
          refine ⟨is_newest, fun g mem => unanswered g (List.mem_of_mem_erase mem), .inr ?_⟩
          rw [is_newest, newest]
          exact ⟨offer, rfl⟩
        · rw [show w.task.publish = .awaitingAnswer s from awaiting] at offering
          cases offering
        · rw [show w.task.publish = .applyingAnswer s from applying] at offering
          cases offering

/-- An answer that is lost was lost with its socket. -/
theorem answers_lost {done : Done} (answers : w.answers done = true) {generation : Nat}
    {err : CommandError} (failed : done.failed = some (generation, err))
    (lost : err.isLost = true) : ¬ w.Up generation := by
  rintro ⟨conn, whole⟩
  rw [World.answers, failed, Option.all_some] at answers
  dsimp only at answers
  rw [lost, conn, whole] at answers
  simp at answers

theorem publishAnswer_led {generation seq : Nat} {res : Except CommandError String}
    (driven : w.Driven) (fates : List Fate) (out : .publishAnswer generation seq ∈ w.works)
    (answers : w.answers (.publishAnswer generation seq res) = true) :
    (({ w with
      fates := fates
      works := w.works.erase (.publishAnswer generation seq) } : World).onDone
        (.publishAnswer generation seq res)).Led := by
  simp only [onDone]
  split
  case isTrue stale => exact fun _ _ => driven.erase fates stale
  case isFalse due =>
    have awaiting : w.task.publish = .awaitingAnswer seq := not_not.mp due
    have numbered := driven.toNumbered.erase (.publishAnswer generation seq) fates
    cases res with
    | ok sdp =>
        refine fun _ _ => ⟨⟨⟨numbered.behind, fun g mem => ?_, fun work mem s offer => ?_,
          numbered.unsent⟩, nofun, nofun, nofun, fun s applying => ?_, driven.renewed⟩,
          nofun, nofun, nofun, nofun⟩
        · rcases List.mem_append.mp mem with mem | mem
          · exact numbered.resumed g mem
          · cases List.mem_singleton.mp mem
        · rcases List.mem_append.mp mem with mem | mem
          · exact numbered.known work mem s offer
          · cases List.mem_singleton.mp mem
            cases offer
            exact driven.known _ out seq rfl
        · cases applying
          exact ⟨sdp, List.mem_append_right _ (List.mem_singleton_self _)⟩
    | error err =>
        dsimp only
        split
        case isTrue lost =>
          have gone := answers_lost answers rfl lost
          refine fun _ _ => ⟨⟨⟨numbered.behind, numbered.resumed, numbered.known,
            numbered.unsent⟩, nofun, nofun, nofun, nofun, driven.renewed⟩, nofun, fun up conn => ?_, nofun, nofun⟩
          have same := driven.answered up seq generation awaiting out
          rw [same] at gone
          exact absurd conn gone
        case isFalse => exact led_of_ended (finish_ended _ _ _)

theorem onPublishApplied_led (pending : ({ w with task.publish := .stable } : World).Pending)
    (sdp : String) : (w.onPublishApplied sdp).Led := by
  rw [onPublishApplied]
  dsimp only
  generalize noted : (({ w with
    task.appliedMids := setPc w.task.appliedMids .publish (some (midsOf sdp))
    task.publish := .stable } : World).note (.applied .publish (midsOf sdp))) = m
  have publishing : m.task.publishing =
      ({ w with task.publish := .stable } : World).task.publishing := by
    rw [← noted]
    rfl
  have aside : w.Aside m := by
    rw [← noted]
    exact .of_moves (.of_task (note_moves _ rfl))
  have applied := pending.aside (aside.of_task { w.task with publish := .stable }) publishing
  have flushed := m.flushRemote_keepsPublishing .publish
  obtain ⟨moves, only⟩ := (m.flushRemote .publish).reannounceMedia_moves
  have keeps := flushed.trans (keepsPublishing_of_onlyMedia moves only)
  intro room going
  generalize (m.flushRemote .publish).reannounceMedia = last at keeps room going
  have last_going : last.task.ended = false := by
    rw [startPending] at going
    split at going
    · exact going
    · exact going
  refine startPending_driven (applied.aside (.of_moves keeps.moves) keeps.same) ?_ last_going
  have same := keeps.same
  rw [publishing] at same
  exact congrArg Publishing.publish same

theorem publishApplied_led {seq : Nat} {sdp : String} {res : Except String Unit}
    (driven : w.Driven) (fates : List Fate) :
    (({ w with
      fates := fates
      works := w.works.erase (.publishApplied seq sdp) } : World).onDone
        (.publishApplied seq sdp res)).Led := by
  simp only [onDone]
  split
  case isTrue stale => exact fun _ _ => driven.erase fates stale
  case isFalse due =>
    cases res with
    | error message => exact led_of_ended (finish_ended _ _ _)
    | ok _ =>
        have numbered := driven.toNumbered.erase (.publishApplied seq sdp) fates
        exact onPublishApplied_led ⟨⟨numbered.behind, numbered.resumed, numbered.known,
          numbered.unsent⟩, nofun, nofun, nofun, nofun, driven.renewed⟩ sdp

/-- The work that the drop interrupted is done again. -/
theorem afterResume_led (pending : w.Pending) : w.afterResume.Led := by
  have sent : w.restartPublish.resendOffer.Led := fun room _ =>
    resendOffer_driven (restartPublish_restarted pending) room
  have answered := sent.keeps (sendRetainedAnswer_keepsPublishing _)
  obtain ⟨moves, only⟩ := w.restartPublish.resendOffer.sendRetainedAnswer.resendMedia_moves
  have announced := answered.keeps (keepsPublishing_of_onlyMedia moves only)
  obtain ⟨last_moves, last_only⟩ :=
    w.restartPublish.resendOffer.sendRetainedAnswer.resendMedia.flushReannounce_moves
  exact announced.keeps (keepsPublishing_of_onlyMedia last_moves last_only)

theorem disconnect_driven (driven : w.Driven) (conn : Conn) : (w.disconnect conn).Driven := by
  rw [disconnect]
  split
  · exact ⟨⟨⟨driven.behind, driven.resumed, driven.known, driven.unsent⟩, driven.idle,
      driven.offering, driven.awaiting, driven.applying, driven.renewed⟩,
      nofun, nofun, nofun, nofun⟩
  · exact driven

theorem resume_driven (driven : w.Driven) : (w.resume w.conn).Driven := by
  rw [resume]
  split
  case isFalse => exact driven
  case isTrue due =>
    generalize out : (⟨.resume w.task.callId w.task.participantId w.task.resumeToken,
      some "call.joined", w.conn.generation⟩ : Outgoing) = outgoing
    have aside := Aside.submit w outgoing
    have task := w.submit_task outgoing
    simp only [command, out]
    split
    case h_2 later at_submit =>
      rw [at_submit] at aside task
      exact driven.aside aside (by rw [show later.task = w.task from task])
    case h_1 later at_submit =>
      rw [at_submit] at aside task
      have kept := @Driven.aside w later driven aside (by rw [show later.task = w.task from task])
      have old {work : Work} (about : work.topic = .publish)
          (mem : work ∈ later.works ++ [.resumed w.conn.generation]) : work ∈ later.works := by
        rcases List.mem_append.mp mem with mem | mem
        · exact mem
        · rw [List.mem_singleton.mp mem] at about
          cases about
      refine ⟨⟨⟨kept.behind, fun g mem => ?_, fun work mem seq offer => ?_, kept.unsent⟩,
        kept.idle, fun seq offering => ?_, fun seq awaiting => ?_, fun seq applying => ?_,
        kept.renewed⟩, kept.sent, kept.restarted, kept.asked, fun up seq g awaiting mem => ?_⟩
      · rcases List.mem_append.mp mem with mem | mem
        · exact kept.resumed g mem
        · cases List.mem_singleton.mp mem
          exact aside.onward.generation
      · exact kept.known work (old (topic_of_offer offer) mem) seq offer
      · obtain ⟨newest, unanswered, waits⟩ := kept.offering seq offering
        exact ⟨newest, fun g mem => unanswered g (old rfl mem),
          waits.imp (List.mem_append_left _) id⟩
      · obtain ⟨g, mem⟩ := kept.awaiting seq awaiting
        exact ⟨g, List.mem_append_left _ mem⟩
      · obtain ⟨sdp, mem⟩ := kept.applying seq applying
        exact ⟨sdp, List.mem_append_left _ mem⟩
      · exact kept.answered up seq g awaiting (old rfl mem)

theorem onConn_driven (driven : w.Driven) : (w.onConn w.conn).Driven := by
  have same : (w.disconnect w.conn).conn = w.conn := by
    rw [disconnect]
    split
    · rfl
    · rfl
  rw [onConn]
  split
  · exact driven
  · have resumed := resume_driven (disconnect_driven driven w.conn)
    rwa [same] at resumed

theorem onResumed_led {generation : Nat} {res : Except CommandError Unit} (driven : w.Driven)
    (fates : List Fate) (out : .resumed generation ∈ w.works) :
    (({ w with
      fates := fates
      works := w.works.erase (.resumed generation) } : World).onResumed generation res).Led := by
  have erased := @Driven.erase w driven (.resumed generation) fates id
  cases res with
  | ok _ =>
      refine afterResume_led ⟨⟨driven.resumed generation out, erased.resumed, erased.known,
        erased.unsent⟩, erased.idle, erased.offering, erased.awaiting, erased.applying,
        erased.renewed⟩
  | error err =>
      have retried : (({ w with
          task.resuming := false
          fates := fates
          works := w.works.erase (.resumed generation) } : World).onConn w.conn).Led :=
        fun _ _ => onConn_driven (w := { w with
          task.resuming := false
          fates := fates
          works := w.works.erase (.resumed generation) })
          ⟨⟨⟨erased.behind, erased.resumed, erased.known, erased.unsent⟩, erased.idle,
            erased.offering, erased.awaiting, erased.applying, erased.renewed⟩,
            erased.sent, erased.restarted, erased.asked, erased.answered⟩
      cases err with
      | rejected code message =>
          apply led_of_ended
          rw [onResumed]
          dsimp only
          split
          · exact (finish_ended _ _ _)
          · exact (finish_ended _ _ _)
      | notSent => exact retried
      | unknown => exact retried
      | timeout => exact retried
      | unexpectedReply => exact retried
      | tooLarge => exact retried
      | busy => exact retried

theorem onDone_led {done : Done} (driven : w.Driven) (fates : List Fate)
    (out : done.work ∈ w.works) (answers : w.answers done = true) :
    (({ w with
      fates := fates
      works := w.works.erase done.work } : World).onDone done).Led := by
  cases done with
  | publishOffer seq res => exact publishOffer_led driven fates
  | publishAnswer generation seq res => exact publishAnswer_led driven fates out answers
  | publishApplied seq sdp res => exact publishApplied_led driven fates
  | resumed generation res => exact onResumed_led driven fates out
  | subscribeApplied seq version streams res =>
      have erased : Led { w with
          fates := fates
          works := w.works.erase (.subscribeApplied seq version streams) } :=
        fun _ _ => driven.erase fates id
      simp only [onDone]
      split
      · exact erased
      · have taken := erased.keeps (@Keeps.of_task _ _ _ _ { w.task with
          sub := { w.task.sub with applying := none } } rfl rfl)
        cases res with
        | ok answer =>
            obtain ⟨moves, mids, buf, sub, ends⟩ :=
              onSubscribeApplied_moves _ version streams answer
            exact taken.keeps (.of_ends moves (by decide) ends rfl rfl fun _ _ _ _ => rfl)
        | error message => exact led_of_ended (finish_ended _ _ _)
  | subscribeAck generation version res =>
      have erased : Led { w with
          fates := fates
          works := w.works.erase (.subscribeAck generation version) } :=
        fun _ _ => driven.erase fates id
      obtain ⟨moves, sub, ends⟩ := onSubscribeAck_moves { w with
          fates := fates
          works := w.works.erase (.subscribeAck generation version) } version res
      exact erased.keeps (.of_ends moves (by decide) ends rfl rfl fun _ _ _ _ => rfl)
  | mediaAck generation intent prev res =>
      have erased : Led { w with
          fates := fates
          works := w.works.erase (.mediaAck generation intent prev) } :=
        fun _ _ => driven.erase fates id
      obtain ⟨moves, only⟩ := onMediaAck_moves { w with
          fates := fates
          works := w.works.erase (.mediaAck generation intent prev) } intent prev res
      exact erased.keeps (keepsPublishing_of_onlyMedia moves only)

theorem onJoined_led (driven : w.Driven) (data : Option Joined) : (w.onJoined data).Led := by
  cases data with
  | none => exact led_of_ended (finish_ended _ _ _)
  | some joined =>
      have numbered : (w.setJoined joined).Numbered :=
        ⟨driven.behind, driven.resumed, driven.known, driven.unsent⟩
      rw [onJoined]
      split
      case isTrue => exact fun _ _ => startPublishOffer_driven numbered
      case isFalse later =>
        refine fun _ _ => ⟨⟨numbered, fun idle wanted => ?_, driven.offering, driven.awaiting,
          driven.applying, fun none_asked => ?_⟩, driven.sent, driven.restarted, driven.asked,
          driven.answered⟩
        · exact absurd ⟨(driven.idle idle wanted).2, wanted⟩ later
        · refine (driven.renewed none_asked).append fun mem => ?_
          cases List.mem_singleton.mp mem

theorem onFrame_led (driven : w.Driven) (frame : CallFrame) : (w.onFrame frame).Led := by
  have led : w.Led := fun _ _ => driven
  cases frame with
  | joined data => exact onJoined_led driven data
  | subscribeOffer version sdp streams =>
      obtain ⟨moves, only⟩ := w.onOffer_moves version sdp streams
      exact led.keeps (keepsPublishing_of_onlySub moves only)
  | ice pc candidate =>
      cases pc with
      | none => exact led
      | some pc =>
          obtain ⟨moves, buf, ends⟩ := w.onRemoteCandidate_moves pc candidate
          exact led.keeps (.of_ends moves (by decide) ends rfl rfl fun _ _ _ _ => rfl)
  | ended reason => exact led_of_ended (finish_ended _ _ _)
  | other => exact led

theorem onRepublish_led (driven : w.Driven) (caller : Caller) : (w.onRepublish caller).Led := by
  have led : w.Led := fun _ _ => driven
  rw [onRepublish]
  split
  case isTrue => exact led.keeps (w.tell_keepsPublishing _ _)
  case isFalse =>
    split
    case isTrue =>
      have started : (w.note .republished).startPublishOffer.Led := fun _ _ =>
        startPublishOffer_driven
          ⟨driven.behind, driven.resumed, driven.known, driven.unsent⟩
      exact started.keeps (tell_keepsPublishing _ _ _)
    case isFalse busy =>
      have noted : Led { w.note .republished with task.republishPending := true } := by
        refine fun _ _ => ⟨⟨⟨driven.behind, driven.resumed, driven.known, driven.unsent⟩,
          fun idle wanted => ?_, driven.offering, driven.awaiting, driven.applying,
            fun unasked => (by cases unasked)⟩,
          driven.sent, driven.restarted, fun up stable => ?_, driven.answered⟩
        · obtain ⟨unjoined, no_id⟩ := driven.idle idle wanted
          refine ⟨fun mem => ?_, no_id⟩
          rcases List.mem_append.mp mem with mem | mem
          · exact unjoined mem
          · cases List.mem_singleton.mp mem
        · exact absurd ⟨stable, up⟩ busy
      exact noted.keeps (tell_keepsPublishing _ _ _)

theorem onInput_led (driven : w.Driven) (input : Input) : (w.onInput input).Led := by
  have led : w.Led := fun _ _ => driven
  cases input with
  | localCandidate pc candidate =>
      obtain ⟨moves, held, task⟩ := w.onLocalCandidate_moves pc candidate
      refine led.keeps (.of_moves moves (by decide) ?_ ?_)
      · rw [onInput, task]
      · rw [onInput, task]
        rfl
  | engineFailed message => exact led_of_ended (finish_ended _ _ _)
  | setMedia intent caller =>
      obtain ⟨moves, only⟩ := w.setMedia_moves intent caller
      exact led.keeps (keepsPublishing_of_onlyMedia moves only)
  | republish caller => exact onRepublish_led driven caller
  | leave caller => exact led_of_ended (w.onLeave_moves caller).2.ended
  | handleDropped => exact led_of_ended (finish_ended _ _ _)

theorem step_led {next : World} {action : Action} (driven : w.task.ended = false → w.Driven)
    (room : next.NeverFull) (stepped : w.step action = some next) :
    next.task.ended = false → next.Driven := by
  have fated (driven : w.Driven) (fates : List Fate) : ({ w with fates := fates } : World).Driven :=
    ⟨⟨⟨driven.behind, driven.resumed, driven.known, driven.unsent⟩, driven.idle,
      driven.offering, driven.awaiting, driven.applying, driven.renewed⟩, driven.sent,
      driven.restarted, driven.asked, driven.answered⟩
  cases action with
  | transport t =>
      cases stepped
      intro going
      rw [(w.transport_rest t).1] at going
      refine (driven going).aside (.of_moves (w.transport_moves t)) ?_
      rw [(w.transport_rest t).1]
  | observe fates =>
      simp only [step] at stepped
      split at stepped
      case isFalse => cases stepped
      case isTrue due =>
        cases stepped
        intro _
        have driven := fated (driven due.1) fates
        exact onConn_driven (w := { w with
          seen := true
          fates := fates })
          ⟨⟨⟨driven.behind, driven.resumed, driven.known, driven.unsent⟩, driven.idle,
            driven.offering, driven.awaiting, driven.applying, driven.renewed⟩, driven.sent,
            driven.restarted, driven.asked, driven.answered⟩
  | frame frame fates =>
      simp only [step] at stepped
      split at stepped
      case isFalse => cases stepped
      case isTrue going =>
        cases stepped
        exact onFrame_led (fated (driven going) fates) frame room
  | input input fates =>
      simp only [step] at stepped
      split at stepped
      case isFalse => cases stepped
      case isTrue due =>
        cases stepped
        exact onInput_led (fated (driven due.1) fates) input room
  | done done fates =>
      simp only [step] at stepped
      split at stepped
      case isFalse => cases stepped
      case isTrue due =>
        cases stepped
        exact onDone_led (driven due.1) fates due.2.1 due.2.2 room
  | sessionChanged =>
      simp only [step] at stepped
      split at stepped
      case isFalse => cases stepped
      case isTrue going =>
        cases stepped
        exact led_of_ended (w.finish_ended _ _) room

theorem start_driven (generation : Nat) (publishWanted : Bool) :
    (start generation publishWanted).Driven := by
  refine ⟨⟨⟨Nat.le_refl _, nofun, nofun, nofun⟩, fun _ _ => ⟨List.not_mem_nil, rfl⟩,
    nofun, nofun, nofun, fun _ front back split => ?_⟩, nofun, nofun, nofun, nofun⟩
  cases front with
  | nil => cases split
  | cons first front => cases split

/-- A driven call at rest has nothing to renegotiate. -/
theorem Driven.renegotiated (driven : w.Driven) : w.Renegotiated := by
  rintro ⟨works, -, joined⟩ - up conn wanted
  have stable : w.task.publish = .stable := by
    cases publish : w.task.publish with
    | idle => exact absurd joined (driven.idle publish wanted).1
    | offering seq =>
        obtain ⟨-, -, out | ⟨offer, unsent⟩⟩ := driven.offering seq publish
        · rw [works] at out
          exact absurd out List.not_mem_nil
        · exact absurd unsent (driven.sent up conn seq offer publish)
    | awaitingAnswer seq =>
        obtain ⟨g, out⟩ := driven.awaiting seq publish
        rw [works] at out
        exact absurd out List.not_mem_nil
    | applyingAnswer seq =>
        obtain ⟨sdp, out⟩ := driven.applying seq publish
        rw [works] at out
        exact absurd out List.not_mem_nil
    | stable => rfl
    | needsRestart => exact absurd publish (driven.restarted up conn)
  exact ⟨stable, driven.renewed (driven.asked up stable)⟩

/-- No renegotiation is lost in any run in which the command queue is never full. -/
theorem no_renegotiation_lost (generation : Nat) (publishWanted : Bool) (actions : List Action)
    {w : World} (room : Throughout step NeverFull (start generation publishWanted) actions)
    (ran : run step (start generation publishWanted) actions = some w) : w.Renegotiated := by
  have driven : w.task.ended = false → w.Driven :=
    run_invariant_of_throughout (fun driven room stepped => step_led driven room stepped)
      (fun _ => start_driven generation publishWanted) room ran
  intro quiescent going
  exact (driven going).renegotiated quiescent going

/-- A renegotiation is asked for while an offer is under way, and its answer is lost. -/
def interrupted : List Action :=
  [.frame (.joined (some ⟨"c", "p", "t"⟩)) [], .input (.republish 0) [],
    .done (.publishOffer 1 (.ok ⟨"", []⟩)) [], .transport .drop,
    .done (.publishAnswer 1 1 (.error .unknown)) [], .transport .ready, .observe [],
    .done (.resumed 2 (.ok ())) [], .done (.publishOffer 2 (.ok ⟨"", []⟩)) [],
    .done (.publishAnswer 2 2 (.ok "")) [], .done (.publishApplied 2 "" (.ok ())) []]

theorem no_renegotiation_lost_interrupted :
    ∃ w, run step (start 1 true) interrupted = some w ∧ w.Renegotiated := by
  refine ⟨_, rfl, no_renegotiation_lost 1 true interrupted ?_ rfl⟩
  decide +kernel

end World

end Brook.CallTask
