import Brook.SignedIn.Effects
import Brook.Transport.Outcomes

namespace Brook.Transport

open Brook.CallTask (CommandError)
open Brook.SignedIn (Revision Session Store View)
open Brook.Transition (run)
open Brook.Ws (Json)

/-! The socket keeps up with the session: rotations, sign-ins and sign-outs while one connection
runs, each published some time after its section. -/

/-- The order in which a store's revisions come. -/
def Before (first second : Revision) : Prop :=
  first.epoch < second.epoch ∨
    first.epoch = second.epoch ∧ first.credentialRev ≤ second.credentialRev

theorem Before.refl (rev : Revision) : Before rev rev := .inr ⟨rfl, le_refl _⟩

theorem Before.trans {first second third : Revision} (front : Before first second)
    (back : Before second third) : Before first third := by
  unfold Before at *
  omega

/-- What a section does to the revision and to who is signed in; `true` if it publishes. -/
inductive Shift (view next : View) : Bool → Prop
  | still (rev : next.store.rev = view.store.rev)
      (session : next.store.session.isSome = view.store.session.isSome) : Shift view next false
  | rotated (epoch : next.store.rev.epoch = view.store.rev.epoch)
      (rev : next.store.rev.credentialRev = view.store.rev.credentialRev + 1)
      (session : next.store.session.isSome = true) : Shift view next true
  | renewed (epoch : next.store.rev.epoch = view.store.rev.epoch + 1) : Shift view next true

theorem Section.shift (view : View) (section_ : Section) :
    Shift view (section_.run view).1 (section_.run view).2 := by
  cases section_ with
  | reserveLogin => exact .still rfl rfl
  | takeOutForLogin gen faults =>
      rw [Section.run]
      rcases view.takeOutForLogin_cases faults gen with
        ⟨-, is⟩ | ⟨-, -, is⟩ | ⟨old, -, -, is⟩
      · rw [is]
        exact .still rfl rfl
      · rw [is]
        exact .renewed rfl
      · rw [is]
        exact .renewed rfl
  | openChallenge gen =>
      rw [Section.run, View.openChallenge]
      split <;> exact .still rfl rfl
  | endChallenge gen =>
      rw [Section.run, View.endChallenge]
      split <;> exact .still rfl rfl
  | installForLogin gen session restored faults =>
      rw [Section.run]
      rcases view.installForLogin_cases faults gen session restored with
        ⟨-, is⟩ | ⟨-, -, -, is⟩ | ⟨vault, marks, -, -, is⟩
      · rw [is]
        exact .still rfl rfl
      · rw [is]
        exact .still rfl rfl
      · rw [is]
        exact .renewed rfl
  | installForChallenge gen session faults =>
      rw [Section.run]
      rcases view.installForChallenge_cases faults gen session with
        ⟨-, is⟩ | ⟨vault, marks, -, -, is⟩
      · rw [is]
        exact .still rfl rfl
      · rw [is]
        exact .renewed rfl
  | replaceUser epoch user faults =>
      rw [Section.run]
      rcases view.replaceUser_cases faults epoch user with is | ⟨session, vault, -, held, -, -, is⟩
      · rw [is]
        exact .still rfl rfl
      · rw [is]
        exact .still rfl (by simp [held])
  | signOut close faults =>
      refine .renewed ?_
      simp only [Section.run, View.signOut]
      split <;> simp [View.withSlot, Store.newEpoch]
  | commitRefresh rotatedFrom fresh rotation faults =>
      rw [Section.run]
      rcases view.commitRefresh_cases faults rotatedFrom fresh rotation with
        ⟨-, is⟩ | ⟨stored, -, -, -, -, is⟩ | ⟨session, vault, marks, -, -, -, -, is⟩
      · rw [is]
        exact .still rfl rfl
      · rw [is]
        exact .still rfl rfl
      · rw [is]
        exact .rotated rfl rfl rfl
  | clearIfHolds rejected faults =>
      rw [Section.run]
      rcases view.clearIfHolds_cases faults rejected with ⟨other, is⟩ | ⟨session, held, same, is⟩
      · cases held : view.store.session with
        | none => exact .still rfl rfl
        | some session =>
            dsimp only
            rw [is, decide_eq_false (other session held)]
            exact .still rfl rfl
      · rw [held]
        dsimp only
        rw [is, decide_eq_true same]
        exact .renewed rfl
  | others vault => exact .still rfl rfl

/-- The server took the token of this revision on this socket. -/
def Confirmed (log : List Event) (socket : Nat) (rev : Revision) : Prop :=
  .opened socket rev ∈ log ∨ ∃ id frame, .wrote socket id (.auth rev) ∈ log ∧
    .received socket frame ∈ log ∧ reOf frame = some id ∧ text frame "type" = "ready"

theorem Confirmed.later {log : List Event} {socket : Nat} {rev : Revision}
    (confirmed : Confirmed log socket rev) (more : List Event) :
    Confirmed (log ++ more) socket rev := by
  rcases confirmed with opened | ⟨id, frame, wrote, received, answers, ready⟩
  · exact .inl (List.mem_append_left _ opened)
  · exact .inr ⟨id, frame, List.mem_append_left _ wrote, List.mem_append_left _ received, answers,
      ready⟩

/-- The link as far as the session is concerned. -/
structure Link.Keeps (client : Client) (link : Link) : Prop where
  epoch : link.epoch ≤ client.session.store.rev.epoch
  signedIn : link.epoch = client.session.store.rev.epoch →
    client.session.store.session.isSome = true
  seen : client.seen = true → client.revision.epoch ≤ link.epoch
  confirmed : ∃ rev : Revision, rev.credentialRev = link.authRev ∧ link.epoch ≤ rev.epoch ∧
    Before rev client.session.store.rev ∧ Confirmed client.log client.sockets rev
  reauth : ∀ reauth, link.reauth = some reauth → ∃ rev : Revision,
    rev.credentialRev = reauth.rev ∧ link.epoch ≤ rev.epoch ∧
      Before rev client.session.store.rev ∧
        .wrote client.sockets reauth.id (.auth rev) ∈ client.log

/-- Nothing is outstanding, so the credentials are the session's. -/
def Link.Current (client : Client) (link : Link) : Prop :=
  link.ready = true → client.seen = true → link.reauth = none →
    client.revision = client.session.store.rev →
      link.authRev = client.session.store.rev.credentialRev

structure Current (client : Client) : Prop where
  published : Before client.revision client.session.store.rev
  unpublished : ∀ rev ∈ client.unpublished, Before rev client.session.store.rev
  link : ∀ link, client.link = some link → link.Keeps client ∧ link.Current client

variable {client next : Client} {link later : Link}

theorem Shift.before {view next : View} {publishes : Bool} (shift : Shift view next publishes) :
    Before view.store.rev next.store.rev := by
  cases shift with
  | still rev => rw [rev]; exact .refl _
  | rotated epoch rev => exact .inr ⟨epoch.symm, by omega⟩
  | renewed epoch => exact .inl (by omega)

/-- The session side and the sockets are as they were; the log may have grown. -/
structure Beside (client next : Client) : Prop where
  session : next.session = client.session
  unpublished : next.unpublished = client.unpublished
  revision : next.revision = client.revision
  seen : next.seen = client.seen
  sockets : next.sockets = client.sockets
  log : ∃ more, next.log = client.log ++ more

theorem Beside.refl (client : Client) : Beside client client :=
  ⟨rfl, rfl, rfl, rfl, rfl, [], by simp⟩

theorem Beside.trans {last : Client} (front : Beside client next) (back : Beside next last) :
    Beside client last := by
  obtain ⟨more, log⟩ := front.log
  obtain ⟨rest, later⟩ := back.log
  exact ⟨back.session.trans front.session, back.unpublished.trans front.unpublished,
    back.revision.trans front.revision, back.seen.trans front.seen,
    back.sockets.trans front.sockets, more ++ rest, by rw [later, log, List.append_assoc]⟩

theorem Link.Keeps.grow (keeps : link.Keeps client) {publishes : Bool}
    (shift : Shift client.session next.session publishes)
    (seen : next.seen = true → client.seen = true ∧ next.revision = client.revision)
    (sockets : next.sockets = client.sockets) (log : ∃ more, next.log = client.log ++ more) :
    link.Keeps next where
  epoch := by
    have grows := shift.before
    have before := keeps.epoch
    unfold Before at grows
    omega
  signedIn same := by
    have before := keeps.epoch
    cases shift with
    | still rev session => rw [session]; exact keeps.signedIn (same.trans (by rw [rev]))
    | rotated epoch rev session => exact session
    | renewed epoch => omega
  seen is := by
    obtain ⟨was, same⟩ := seen is
    rw [same]
    exact keeps.seen was
  confirmed := by
    obtain ⟨rev, is, after, before, confirmed⟩ := keeps.confirmed
    obtain ⟨more, log⟩ := log
    refine ⟨rev, is, after, before.trans shift.before, ?_⟩
    rw [log, sockets]
    exact confirmed.later more
  reauth reauth flying := by
    obtain ⟨rev, is, after, before, wrote⟩ := keeps.reauth reauth flying
    obtain ⟨more, log⟩ := log
    refine ⟨rev, is, after, before.trans shift.before, ?_⟩
    rw [log, sockets]
    exact List.mem_append_left _ wrote

theorem Link.Keeps.beside (keeps : link.Keeps client) (beside : Beside client next) :
    link.Keeps next := by
  have shift : Shift client.session next.session false :=
    .still (by rw [beside.session]) (by rw [beside.session])
  exact keeps.grow shift (fun is => ⟨by rw [← beside.seen]; exact is, beside.revision⟩)
    beside.sockets beside.log

/-- The link has the same credentials. -/
structure Link.Same (link later : Link) : Prop where
  epoch : later.epoch = link.epoch
  authRev : later.authRev = link.authRev
  reauth : later.reauth = link.reauth
  ready : later.ready = link.ready

theorem Link.Keeps.same (keeps : link.Keeps client) (same : link.Same later) :
    later.Keeps client := by
  obtain ⟨epoch, signedIn, seen, confirmed, reauth⟩ := keeps
  exact ⟨by rw [same.epoch]; exact epoch, by rw [same.epoch]; exact signedIn,
    by rw [same.epoch]; exact seen, by rw [same.epoch, same.authRev]; exact confirmed,
    by rw [same.epoch, same.reauth]; exact reauth⟩

/-- Whatever happens beside the session keeps it. -/
theorem Current.beside (current : Current client) (beside : Beside client next)
    (link : ∀ nextLink, next.link = some nextLink →
      ∃ link, client.link = some link ∧ link.Same nextLink) : Current next where
  published := by rw [beside.revision, beside.session]; exact current.published
  unpublished := by rw [beside.unpublished, beside.session]; exact current.unpublished
  link nextLink isNext := by
    obtain ⟨link, isOpen, same⟩ := link nextLink isNext
    obtain ⟨keeps, currently⟩ := current.link link isOpen
    refine ⟨(keeps.same same).beside beside, fun ready seen free isCurrent => ?_⟩
    rw [same.authRev, beside.session]
    exact currently (same.ready ▸ ready) (beside.seen ▸ seen) (same.reauth ▸ free)
      (by rw [← beside.revision, isCurrent, beside.session])

theorem Current.apart (current : Current client) (beside : Beside client next)
    (link : next.link = client.link) : Current next :=
  current.beside beside fun nextLink is => ⟨nextLink, link ▸ is, rfl, rfl, rfl, rfl⟩

/-- What the store has published, or has yet to publish, is not ahead of it. -/
structure Published (client : Client) : Prop where
  published : Before client.revision client.session.store.rev
  unpublished : ∀ rev ∈ client.unpublished, Before rev client.session.store.rev

theorem Current.toPublished (current : Current client) : Published client :=
  ⟨current.published, current.unpublished⟩

theorem Published.beside (published : Published client) (beside : Beside client next) :
    Published next :=
  ⟨by rw [beside.revision, beside.session]; exact published.published,
    by rw [beside.unpublished, beside.session]; exact published.unpublished⟩

theorem Published.current (published : Published client) (link : ∀ link,
    client.link = some link → link.Keeps client ∧ link.Current client) : Current client :=
  ⟨published.published, published.unpublished, link⟩

/-- The connection is over. -/
theorem Published.isOver (published : Published client) (closed : client.link = none) :
    Current client :=
  published.current fun link is => by rw [closed] at is; cases is

/-- A section of the store: what it changes is published later. -/
theorem Current.section_ (current : Current client) (section_ : Section) :
    Current (client.onSection section_) := by
  have shift := Section.shift client.session section_
  rw [Client.onSection]
  generalize section_.run client.session = ran at shift ⊢
  obtain ⟨view, publishes⟩ := ran
  refine ⟨current.published.trans shift.before, fun rev mem => ?_, fun link isOpen => ?_⟩
  · dsimp only at mem
    split at mem
    · rcases List.mem_append.mp mem with old | fresh
      · exact (current.unpublished rev old).trans shift.before
      · rw [List.mem_singleton] at fresh
        rw [fresh]
        exact .refl _
    · exact (current.unpublished rev mem).trans shift.before
  · obtain ⟨keeps, currently⟩ := current.link link isOpen
    refine ⟨keeps.grow shift (fun seen => ⟨seen, rfl⟩) rfl ⟨[], by simp⟩,
      fun ready seen free isCurrent => ?_⟩
    have isCurrent : client.revision = view.store.rev := isCurrent
    have published : Before view.store.rev client.session.store.rev := by
      rw [← isCurrent]
      exact current.published
    dsimp only at shift ⊢
    cases shift with
    | still rev session =>
        rw [rev]
        exact currently ready seen free (isCurrent.trans rev)
    | rotated epoch rev =>
        have rev : view.store.rev.credentialRev = client.session.store.rev.credentialRev + 1 := rev
        have epoch : view.store.rev.epoch = client.session.store.rev.epoch := epoch
        exact absurd published (by unfold Before; omega)
    | renewed epoch =>
        have epoch : view.store.rev.epoch = client.session.store.rev.epoch + 1 := epoch
        exact absurd published (by unfold Before; omega)

theorem Link.Keeps.authenticated (keeps : link.Keeps client) (seen : client.seen = true)
    (isCurrent : client.revision = client.session.store.rev) :
    link.epoch = client.session.store.rev.epoch := by
  have upper := keeps.epoch
  have lower := keeps.seen seen
  rw [isCurrent] at lower
  omega

theorem finish_beside (client : Client) (link : Link) : Beside client (client.finish link) := by
  rw [Client.finish, Client.failAll_eq]
  exact ⟨rfl, rfl, rfl, rfl, rfl, _, List.append_assoc _ _ _⟩

theorem finish_closed (client : Client) (link : Link) : (client.finish link).link = none := by
  rw [Client.finish, Client.failAll_eq]
  rfl

/-- A comparison with the published revision leaves nothing behind. -/
theorem Published.keepUp (published : Published client) (keeps : later.Keeps client)
    (reached : Bool) (took : Nat) : Current (client.keepUp later reached took) := by
  rw [Client.keepUp]
  split
  case isFalse same =>
    simp only [ne_eq, not_not] at same
    refine ⟨published.published, published.unpublished, fun link is => ?_⟩
    cases is
    refine ⟨keeps.beside ⟨rfl, rfl, rfl, rfl, rfl, [], by simp⟩, fun _ _ _ isCurrent => ?_⟩
    have isCurrent : client.revision = client.session.store.rev := isCurrent
    rw [← same, isCurrent]
  case isTrue =>
    rw [Client.sendReauth]
    cases signedIn : client.session.store.session with
    | none =>
        refine ⟨published.published, published.unpublished, fun link is => ?_⟩
        cases is
        refine ⟨?_, fun _ seen _ isCurrent => ?_⟩
        · exact ⟨keeps.epoch, keeps.signedIn, keeps.seen, keeps.confirmed,
            fun reauth flying => by cases flying⟩
        · have held := keeps.signedIn (keeps.authenticated seen isCurrent)
          rw [signedIn] at held
          cases held
    | some session =>
        cases reached with
        | false =>
            have sent : Beside client ({ client with now := client.now + took }.note
                (.wrote client.sockets (Client.frameId client.conn.generation (later.nextId + 1))
                  (.auth client.session.store.rev))) := ⟨rfl, rfl, rfl, rfl, rfl, _, rfl⟩
            exact (published.beside (sent.trans (finish_beside _ _))).isOver (finish_closed _ _)
        | true =>
            refine ⟨published.published, published.unpublished, fun link is => ?_⟩
            cases is
            refine ⟨⟨keeps.epoch, fun _ => ?_, keeps.seen, ?_, fun reauth flying => ?_⟩,
              fun _ _ free => by cases free⟩
            · show client.session.store.session.isSome = true
              rw [signedIn]
              rfl
            · obtain ⟨rev, is, after, before, confirmed⟩ := keeps.confirmed
              exact ⟨rev, is, after, before, confirmed.later _⟩
            · cases flying
              exact ⟨client.session.store.rev, rfl, keeps.epoch, .refl _, by simp [Client.note]⟩

/-! ### What is beside the session -/

theorem Beside.noted (client : Client) (event : Event) : Beside client (client.note event) :=
  ⟨rfl, rfl, rfl, rfl, rfl, [event], rfl⟩

theorem Beside.failed (client : Client) (wanted : Option Wanted) (error : CommandError) :
    Beside client (client.fail wanted error) := by
  rw [Client.fail_eq]
  exact ⟨rfl, rfl, rfl, rfl, rfl, _, rfl⟩

theorem submit_beside (client : Client) (out : Outgoing) : Beside client (client.submit out) := by
  rw [Client.submit]
  split
  case isTrue => exact .failed client _ _
  case isFalse => exact ⟨rfl, rfl, rfl, rfl, rfl, [.admitted out], rfl⟩

theorem submit_link (client : Client) (out : Outgoing) :
    (client.submit out).link = client.link := by
  rw [Client.submit, Client.fail_eq]
  split <;> rfl

theorem enqueue_beside (client : Client) (out : Outgoing) :
    Beside client (client.enqueue out) ∧ (client.enqueue out).link = client.link := by
  rw [Client.enqueue, Client.fail_eq, Client.fail_eq]
  split
  · exact ⟨⟨rfl, rfl, rfl, rfl, rfl, _, rfl⟩, rfl⟩
  · split
    · exact ⟨⟨rfl, rfl, rfl, rfl, rfl, _, rfl⟩, rfl⟩
    · exact ⟨⟨rfl, rfl, rfl, rfl, rfl, _, rfl⟩, rfl⟩

theorem register_same (link : Link) (id : String) (wanted : Option Wanted) (deadline : Nat) :
    link.Same (Client.register { link with nextId := link.nextId + 1 } id wanted deadline) := by
  cases wanted <;> exact ⟨rfl, rfl, rfl, rfl⟩

theorem Current.finish (current : Current client) (beside : Beside client next) (link : Link) :
    Current (next.finish link) :=
  (current.toPublished.beside (beside.trans (finish_beside next link))).isOver
    (finish_closed next link)

theorem writeCommand_current (encode : Fields → String) (current : Current client)
    (isOpen : client.link = some link) (out : Outgoing) (rest : List Outgoing) (sent : Sent)
    (took : Nat) :
    Current ({ client with queue := rest }.writeCommand encode link out sent took) := by
  have unqueued : Beside client { client with queue := rest } :=
    ⟨rfl, rfl, rfl, rfl, rfl, [], by simp⟩
  have stays : ∀ {later : Link}, link.Same later → ∀ nextLink, some later = some nextLink →
      ∃ link, client.link = some link ∧ link.Same nextLink := fun same nextLink is =>
    ⟨link, isOpen, by cases is; exact same⟩
  rw [Client.writeCommand]
  split
  case isTrue =>
    exact current.apart (unqueued.trans (.failed _ _ _)) (by rw [Client.fail_eq])
  case isFalse =>
    split
    case isTrue => exact current.apart unqueued rfl
    case isFalse =>
      dsimp only
      split
      case isTrue =>
        refine current.beside ?_ (stays ⟨rfl, rfl, rfl, rfl⟩)
        rw [Client.fail_eq]
        exact ⟨rfl, rfl, rfl, rfl, rfl, _, rfl⟩
      case isFalse =>
        have handed : Beside client ({ client with queue := rest, now := client.now + took }.note
            (.wrote client.sockets (Client.frameId out.generation (link.nextId + 1))
              (.command out client.now))) := ⟨rfl, rfl, rfl, rfl, rfl, _, rfl⟩
        cases sent with
        | done =>
            refine current.beside ?_ (stays (register_same link _ _ _))
            exact ⟨rfl, rfl, rfl, rfl, rfl, _, rfl⟩
        | failed => exact current.finish (handed.trans (.failed _ _ _)) _
        | stalled => exact current.finish handed _

theorem onReply_beside (client : Client) (link : Link) (re ty : String) (data : Json) :
    Beside client (client.onReply link re ty data).1 ∧
      link.Same (client.onReply link re ty data).2 := by
  rw [Client.onReply]
  split
  case h_1 => exact ⟨.refl _, rfl, rfl, rfl, rfl⟩
  case h_2 waiting found =>
    dsimp only
    split
    case isFalse => exact ⟨.noted _ _, rfl, rfl, rfl, rfl⟩
    case isTrue =>
      split
      case isTrue => exact ⟨.noted _ _, rfl, rfl, rfl, rfl⟩
      case isFalse =>
        refine ⟨.trans ?_ (.noted _ _), rfl, rfl, rfl, rfl⟩
        cases waiting.wanted.route with
        | none => exact .refl _
        | some mailbox => exact ⟨rfl, rfl, rfl, rfl, rfl, _, List.append_assoc _ _ _⟩

theorem onCall_beside (client : Client) (ty : String) (data : Json) :
    Beside client (client.onCall ty data) := by
  rw [Client.onCall]
  split
  · exact .refl _
  · split
    · exact ⟨rfl, rfl, rfl, rfl, rfl, _, rfl⟩
    · exact .noted _ _

theorem handleText_beside (client : Client) (link : Link) (frame : Json) :
    Beside client (client.handleText link frame).1 ∧
      link.Same (client.handleText link frame).2.1 := by
  rw [Client.handleText]
  dsimp only
  have raw : Beside client (if (frame.get? "re").isNone then
      client.note (.raw (text frame "type") ((frame.get? "data").getD .null)) else client) := by
    split
    · exact .noted _ _
    · exact .refl _
  generalize (if (frame.get? "re").isNone then
      client.note (.raw (text frame "type") ((frame.get? "data").getD .null)) else client) = noted
    at raw ⊢
  split
  case h_1 re answers =>
    obtain ⟨beside, same⟩ := onReply_beside noted link re (text frame "type")
      ((frame.get? "data").getD .null)
    exact ⟨raw.trans beside, same⟩
  case h_2 =>
    split
    · exact ⟨raw.trans ⟨rfl, rfl, rfl, rfl, rfl, _, rfl⟩, rfl, rfl, rfl, rfl⟩
    · split
      · exact ⟨raw.trans (.noted _ _), rfl, rfl, rfl, rfl⟩
      · split
        · exact ⟨raw.trans (onCall_beside _ _ _), rfl, rfl, rfl, rfl⟩
        · exact ⟨raw.trans (.noted _ _), rfl, rfl, rfl, rfl⟩

/-- The answer to a re-auth: the server took its token. -/
theorem Link.Keeps.confirm (keeps : link.Keeps client) {reauth : Reauth}
    (flying : link.reauth = some reauth) {frame : Json} (answers : reOf frame = some reauth.id)
    (ready : text frame "type" = "ready")
    (heard : .received client.sockets frame ∈ client.log) :
    Link.Keeps client { link with authRev := reauth.rev, reauth := none } := by
  obtain ⟨rev, is, after, before, wrote⟩ := keeps.reauth reauth flying
  exact ⟨keeps.epoch, keeps.signedIn, keeps.seen,
    ⟨rev, is, after, before, .inr ⟨reauth.id, frame, wrote, heard, answers, ready⟩⟩,
    fun _ gone => by cases gone⟩

theorem onText_current (current : Current client) (isOpen : client.link = some link) (frame : Json)
    (reached : Bool) (took : Nat) : Current (client.onText link frame reached took) := by
  have noted := Beside.noted client (.received client.sockets frame)
  have heard : Current (client.note (.received client.sockets frame)) :=
    current.apart noted rfl
  have keeps := (heard.link link isOpen).1
  rw [Client.onText]
  split
  case h_1 reauth answered =>
    rw [Client.answersReauth, Option.filter_eq_some_iff] at answered
    obtain ⟨flying, names⟩ := answered
    split
    case isTrue ready =>
      exact heard.toPublished.keepUp (keeps.confirm flying (of_decide_eq_true names) ready
        (by simp [Client.note])) reached took
    case isFalse => exact heard.finish (.refl _) link
  case h_2 =>
    obtain ⟨beside, same⟩ := handleText_beside (client.note (.received client.sockets frame)) link
      frame
    generalize (client.note (.received client.sockets frame)).handleText link frame = result
      at beside same
    obtain ⟨next, later, becameReady⟩ := result
    dsimp only at beside same ⊢
    have after : Current { next with link := some later } :=
      heard.beside ⟨beside.session, beside.unpublished, beside.revision, beside.seen,
        beside.sockets, beside.log⟩ fun nextLink is => ⟨link, isOpen, by cases is; exact same⟩
    cases becameReady with
    | false => exact after
    | true =>
        have kept := (keeps.same same).beside beside
        have ready : Link.Keeps next { later with ready := true } :=
          ⟨kept.epoch, kept.signedIn, kept.seen, kept.confirmed, kept.reauth⟩
        exact (heard.toPublished.beside beside).keepUp ready reached took

theorem onRevision_current (current : Current client) (isOpen : client.link = some link)
    (reached : Bool) (took : Nat) : Current (client.onRevision link reached took) := by
  obtain ⟨keeps, currently⟩ := current.link link isOpen
  have published : Published { client with seen := true } :=
    ⟨current.published, current.unpublished⟩
  rw [Client.onRevision]
  dsimp only
  split
  case isTrue =>
    exact (published.beside (finish_beside _ _)).isOver (finish_closed _ _)
  case isFalse same =>
    simp only [ne_eq, not_not] at same
    have seen : link.Keeps { client with seen := true } :=
      ⟨keeps.epoch, keeps.signedIn, fun _ => same.le, keeps.confirmed, keeps.reauth⟩
    split
    case isTrue => exact published.keepUp seen reached took
    case isFalse busy =>
      refine published.current fun other is => ?_
      have is : client.link = some other := is
      rw [isOpen] at is
      cases is
      refine ⟨seen, fun ready _ free => absurd ⟨ready, ?_⟩ busy⟩
      rw [free]
      rfl

theorem Current.connect (current : Current client)
    (signedIn : client.session.store.session.isSome = true) : Current client.connect := by
  refine ⟨current.published, current.unpublished, fun link is => ?_⟩
  cases is
  refine ⟨⟨le_refl _, fun _ => ?_, fun _ => ?_, ?_, fun reauth flying => by cases flying⟩,
    fun ready => by cases ready⟩
  · exact signedIn
  · have published := current.published
    unfold Before at published
    show client.revision.epoch ≤ client.session.store.rev.epoch
    omega
  · exact ⟨client.session.store.rev, rfl, le_refl _, .refl _, .inl (by simp [Client.connect,
      Client.note])⟩

theorem Current.step {encode : Fields → String} {action : Action} (current : Current client)
    (stepped : step encode client action = some next) : Current next := by
  cases action with
  | tick ms =>
      cases stepped
      exact current.apart ⟨rfl, rfl, rfl, rfl, rfl, [], by simp⟩ rfl
  | request generation frame expect route =>
      cases stepped
      refine current.apart (.trans ?_ (submit_beside _ _)) (submit_link _ _)
      exact ⟨rfl, rfl, rfl, rfl, rfl, [], by simp⟩
  | notify generation frame =>
      cases stepped
      exact current.apart (submit_beside _ _) (submit_link _ _)
  | enqueue index =>
      obtain ⟨out, -, rfl⟩ := Option.map_eq_some_iff.mp stepped
      obtain ⟨beside, link⟩ := enqueue_beside
        { client with admitted := client.admitted.eraseIdx index } out
      refine current.apart (.trans ?_ beside) link
      exact ⟨rfl, rfl, rfl, rfl, rfl, [], by simp⟩
  | giveUp reply | unroute callId =>
      cases stepped
      exact current.apart ⟨rfl, rfl, rfl, rfl, rfl, _, rfl⟩ rfl
  | mailboxGone mailbox =>
      cases stepped
      exact current.apart ⟨rfl, rfl, rfl, rfl, rfl, [], by simp⟩ rfl
  | session section_ =>
      cases stepped
      exact current.section_ section_
  | publish index =>
      obtain ⟨revision, waits, rfl⟩ := Option.map_eq_some_iff.mp stepped
      refine ⟨current.unpublished revision (List.mem_of_getElem? waits), fun rev mem =>
        current.unpublished rev (List.mem_of_mem_eraseIdx mem), fun link is => ?_⟩
      obtain ⟨keeps, -⟩ := current.link link is
      exact ⟨⟨keeps.epoch, keeps.signedIn, fun seen => (by cases seen), keeps.confirmed,
        keeps.reauth⟩, fun _ seen => (by cases seen)⟩
  | mark =>
      simp only [Transport.step, Option.ite_none_left_eq_some, not_or] at stepped
      obtain ⟨⟨closed, -⟩, stepped⟩ := stepped
      cases stepped
      refine Published.isOver ⟨current.published, current.unpublished⟩ ?_
      simpa using closed
  | connect =>
      simp only [Transport.step, Option.ite_none_left_eq_some, not_or] at stepped
      obtain ⟨⟨-, -, -, held⟩, stepped⟩ := stepped
      cases stepped
      refine current.connect ?_
      cases signedIn : client.session.store.session with
      | none => exact absurd (by rw [signedIn]; rfl) held
      | some => rfl
  | revision reached took =>
      simp only [Transport.step, Option.bind_eq_some_iff, Option.ite_none_left_eq_some] at stepped
      obtain ⟨link, isOpen, -, stepped⟩ := stepped
      cases stepped
      exact onRevision_current current isOpen reached took
  | take sent took =>
      simp only [Transport.step, Option.bind_eq_some_iff] at stepped
      obtain ⟨link, isOpen, stepped⟩ := stepped
      split at stepped
      case h_1 => cases stepped
      case h_2 out rest first =>
        cases stepped
        exact writeCommand_current encode current isOpen out rest sent took
  | text frame reached took =>
      obtain ⟨link, isOpen, rfl⟩ := Option.map_eq_some_iff.mp stepped
      cases frame with
      | none => exact current
      | some frame => exact onText_current current isOpen frame reached took
  | deadline =>
      obtain ⟨link, isOpen, rfl⟩ := Option.map_eq_some_iff.mp stepped
      rw [Client.onDeadline]
      split
      case isTrue => exact current.finish (.refl _) link
      case isFalse =>
        rw [Client.expire, Client.failAll_eq]
        refine current.beside ⟨rfl, rfl, rfl, rfl, rfl, _, rfl⟩ fun nextLink is => ?_
        cases is
        exact ⟨link, isOpen, rfl, rfl, rfl, rfl⟩
  | close =>
      obtain ⟨link, isOpen, rfl⟩ := Option.map_eq_some_iff.mp stepped
      exact current.finish (.refl _) link
  | stop =>
      simp only [Transport.step, Option.ite_none_left_eq_some] at stepped
      obtain ⟨-, stepped⟩ := stepped
      cases stepped
      have beside : Beside client client.stop ∧ client.stop.link = none := by
        rw [Client.stop, Client.failAll_eq]
        exact ⟨⟨rfl, rfl, rfl, rfl, rfl, _, List.append_assoc _ _ _⟩, rfl⟩
      exact (current.toPublished.beside beside.1).isOver beside.2

theorem Current.start (view : View) : Current (start view) where
  published := .refl _
  unpublished rev mem := by cases mem
  link link is := by cases is

theorem run_current {encode : Fields → String} {view : View} {actions : List Action}
    (reached : run (step encode) (start view) actions = some client) : Current client :=
  Brook.Transition.run_invariant_of_step (fun current stepped => Current.step current stepped)
    (Current.start view) reached

/-- Where the connection is ready, no re-auth is in flight and the task has seen the session's
revision, the token that the server last took on this socket is the session's current one. -/
theorem credentials_current {encode : Fields → String} {view : View} {actions : List Action}
    (reached : run (step encode) (start view) actions = some client)
    (isOpen : client.link = some link) (ready : link.ready = true) (free : link.reauth = none)
    (seen : client.seen = true) (published : client.revision = client.session.store.rev) :
    client.session.store.session.isSome = true ∧
      link.epoch = client.session.store.rev.epoch ∧
      link.authRev = client.session.store.rev.credentialRev ∧
      Confirmed client.log client.sockets client.session.store.rev := by
  obtain ⟨keeps, currently⟩ := (run_current reached).link link isOpen
  have epoch := keeps.authenticated seen published
  have rev := currently ready seen free published
  obtain ⟨confirmedRev, is, after, before, confirmed⟩ := keeps.confirmed
  refine ⟨keeps.signedIn epoch, epoch, rev, ?_⟩
  have same : confirmedRev = client.session.store.rev := by
    unfold Before at before
    obtain ⟨confirmedEpoch, credentialRev⟩ := confirmedRev
    dsimp only at is after before
    have same : confirmedEpoch = client.session.store.rev.epoch := by omega
    rw [same, is, rev]
  exact same ▸ confirmed

/-- A rotation while the socket is open, then its re-auth. -/
def rotated : List Action :=
  connected ++ [.session (.commitRefresh ⟨0, 0⟩ ⟨1, 0⟩ true SignedIn.Faults.none), .publish 0,
    .revision true 3,
    .text (some (.obj [("type", .str "ready"), ("re", .str (Client.frameId 1 1))])) true 0]

theorem credentials_current_rotated :
    ∃ client, run (step fun _ => "") (start signedIn) rotated = some client ∧
      ∃ link, client.link = some link ∧
        link.authRev = client.session.store.rev.credentialRev ∧
        client.session.store.rev = ⟨0, 1⟩ :=
  ⟨_, rfl, _, rfl, (credentials_current (show run (step fun _ => "") (start signedIn) rotated =
    some _ from rfl) rfl rfl rfl rfl rfl).2.2.1, rfl⟩

end Brook.Transport
