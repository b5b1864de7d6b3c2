import Brook.SignedIn.Locks

namespace Brook.SignedIn

open Transition

/-! Whether a refresh token is presented again after some client received its
rotation. -/

def Rotated (log : List Entry) (token : Token) : Prop :=
  ∃ entry ∈ log, entry.event = .rotated token

instance (log : List Entry) (token : Token) : Decidable (Rotated log token) :=
  inferInstanceAs (Decidable (∃ entry ∈ log, _))

/-- The newest entry comes first. -/
def NeverReplayed : List Entry → Prop
  | [] => True
  | entry :: older =>
      (match entry.event with
        | .presented token => ¬ Rotated older token
        | _ => True) ∧
      NeverReplayed older

instance decidableNeverReplayed :
    (log : List Entry) → Decidable (NeverReplayed log)
  | [] => isTrue trivial
  | entry :: older =>
      haveI := decidableNeverReplayed older
      haveI : Decidable (match entry.event with
          | .presented token => ¬ Rotated older token
          | _ => True) := by
        cases entry.event <;> infer_instance
      inferInstanceAs (Decidable (_ ∧ _))

/-- A device whose slot an earlier process left so. -/
def System.launch (slot : Option Session) : System :=
  { System.start with
    vault := ⟨slot, false, none, 0⟩
    clock := (slot.map (·.refreshToken.number + 1)).getD 0 }

def Input.works : Input → Prop
  | .proceed faults | .refused faults | .pair faults | .me _ faults =>
      faults = .none
  | _ => True

instance (input : Input) : Decidable input.works :=
  match input with
  | .proceed faults | .refused faults | .pair faults | .me _ faults =>
      inferInstanceAs (Decidable (faults = .none))
  | .failed | .challenge | .limited | .dropped | .expired => isTrue trivial

/-- Clients of one process enable persistence, restore, refresh and are dropped;
the slot works and nothing crashes. -/
def Action.Shares : Action → Prop
  | .create _ | .leave _ _ => True
  | .begin _ op _ =>
      op = .enable ∨ op = .restore ∨ op = .refresh ∨ op = .drop
  | .resume _ input => input.works
  | .restart => False

instance (action : Action) : Decidable action.Shares :=
  match action with
  | .create _ | .leave _ _ => isTrue trivial
  | .begin _ op _ =>
      inferInstanceAs (Decidable
        (op = .enable ∨ op = .restore ∨ op = .refresh ∨ op = .drop))
  | .resume _ input => inferInstanceAs (Decidable input.works)
  | .restart => isFalse id

/-- A refresh's new token finds its client still the slot's owner, a restore's
finds the attempt current besides; and no refresh of a dropped client begins
after the stored copy has moved on from the token it still holds. -/
def View.Keepable (view : View) : Stage → Input → Prop
  | .restoreSent gen _ _, .pair _ => view.Mine ∧ view.Current gen
  | .refreshSent _, .pair _ => view.Mine
  | .refreshQueued _, .proceed _ =>
      view.store.closed = true → ∀ session ∈ view.store.session,
        view.vault.slot.map (·.refreshToken) = some session.refreshToken
  | _, _ => True

instance (view : View) (stage : Stage) (input : Input) :
    Decidable (view.Keepable stage input) := by
  unfold View.Keepable
  split <;> infer_instance

def AnswerKept (system : System) : Action → Prop
  | .resume id input =>
      ∀ task ∈ system.tasks.get? id,
        ∀ store ∈ system.clients.get? task.client,
        (system.view task.client store).Keepable task.stage input
  | _ => True

instance (system : System) (action : Action) :
    Decidable (AnswerKept system action) :=
  match action with
  | .resume id input =>
      inferInstanceAs (Decidable (∀ task ∈ system.tasks.get? id,
        ∀ store ∈ system.clients.get? task.client,
        (system.view task.client store).Keepable task.stage input))
  | .create _ | .begin _ _ _ | .leave _ _ | .restart => isTrue trivial

/-! ### One section -/

section

variable {rotated : Token → Prop} {clock : Nat} {view later : View}

structure View.Live (rotated : Token → Prop) (clock : Nat) (view : View) :
    Prop where
  slot : ∀ stored, view.vault.slot = some stored →
    stored.refreshToken.number < clock ∧ ¬ rotated stored.refreshToken
  session : ∀ session, view.store.session = some session →
    session.refreshToken.number < clock
  on : view.store.session.isSome →
    view.store.persistence = true ∧ view.store.persisted = true
  live : view.Mine → view.store.closed = false → ∀ session,
    view.store.session = some session → ¬ rotated session.refreshToken

/-- The token that the stage has presented. -/
def Stage.presents : Stage → Option Token
  | .restoreSent _ stored _ => some stored.refreshToken
  | .refreshSent token => some token
  | _ => none

/-- The stages of a restore, a refresh and a drop. -/
def Stage.Shares : Stage → Prop
  | .restoreQueued _ | .restoreSent _ _ _ | .refreshQueued _ | .refreshSent _
  | .profileOut _ | .closing => True
  | _ => False

structure Stage.Live (clock : Nat) (view : View) (stage : Stage) : Prop where
  shares : stage.Shares
  old : ∀ token, stage.presents = some token → token.number < clock
  restores : ∀ gen stored family, stage = .restoreSent gen stored family →
    view.store.persistence = true
  refreshes : ∀ token, stage = .refreshSent token →
    view.store.persistence = true ∧ view.store.persisted = true ∧
      (view.store.closed = false → ∃ session,
        view.store.session = some session ∧ session.refreshToken = token)

/-- What the other tasks of the section's client may rely on. -/
structure View.Frames (view later : View) : Prop where
  on : view.store.persistence = true → later.store.persistence = true
  kept : view.store.persisted = true → later.store.persisted = true
  session : later.store.closed = false → view.store.closed = false ∧
    later.store.session = view.store.session

theorem Stage.Live.framed {stage : Stage} (live : stage.Live clock view)
    (frames : view.Frames later) : stage.Live (clock + 1) later where
  shares := live.shares
  old token presents := Nat.lt_succ_of_lt (live.old token presents)
  restores gen stored family same :=
    frames.on (live.restores gen stored family same)
  refreshes token same := by
    obtain ⟨on, kept, holds⟩ := live.refreshes token same
    refine ⟨frames.on on, frames.kept kept, fun open_ => ?_⟩
    obtain ⟨before, sameSession⟩ := frames.session open_
    rw [sameSession]
    exact holds before

/-- A stage that does not hold the refresh lock. -/
theorem Stage.Live.waits {stage : Stage} (shares : stage.Shares)
    (waits : stage.holdsRefresh = false) : stage.Live clock view := by
  refine ⟨shares, ?_, ?_, ?_⟩
  · intro token presents
    cases stage <;> simp_all [Stage.presents, Stage.holdsRefresh]
  · intro gen stored family same
    cases same
    cases waits
  · intro token same
    cases same
    cases waits

/-- What a section leaves, and what it says to the server. -/
structure Outcome.Rests (rotated : Token → Prop) (clock : Nat) (view : View)
    (out : Outcome) : Prop where
  client : out.view.client = view.client
  owner : out.view.vault.owner = view.vault.owner
  live : out.view.Live rotated clock
  stage : ∀ next, out.stage = some next → next.Live clock out.view

namespace View

theorem Live.mono (live : view.Live rotated clock) :
    view.Live rotated (clock + 1) where
  slot stored held :=
    ⟨Nat.lt_succ_of_lt (live.slot stored held).1, (live.slot stored held).2⟩
  session session signedIn := Nat.lt_succ_of_lt (live.session session signedIn)
  on := live.on
  live := live.live

theorem Live.store (live : view.Live rotated clock) {store : Store}
    (session : store.session = view.store.session)
    (on : view.store.persistence = true → store.persistence = true)
    (kept : view.store.persisted = true → store.persisted = true)
    (back : store.persistence = true → view.store.persistence = true)
    (open_ : store.closed = false → view.store.closed = false) :
    ({ view with store := store } : View).Live rotated clock where
  slot := live.slot
  session held signedIn := live.session held (session ▸ signedIn)
  on signedIn := by
    have before : view.store.session.isSome := session ▸ signedIn
    exact ⟨on (live.on before).1, kept (live.on before).2⟩
  live mine now held signedIn :=
    live.live ⟨back mine.1, mine.2⟩ (open_ now) held (session ▸ signedIn)

/-- Nobody is signed in, and the slot is as it was or empty. -/
theorem Live.signedOut (live : view.Live rotated clock) {store : Store}
    (signedOut : store.session = none) {vault : Vault}
    (slot : ∀ stored, vault.slot = some stored →
      view.vault.slot = some stored) :
    (⟨view.client, store, vault⟩ : View).Live rotated clock where
  slot stored held := live.slot stored (slot stored held)
  session held signedIn := by cases signedOut.symm.trans signedIn
  on signedIn := by
    have before : store.session.isSome := signedIn
    simp [signedOut] at before
  live _ _ held signedIn := by cases signedOut.symm.trans signedIn

theorem clear_none (vault : Vault) :
    vault.clear .none = ({ vault with slot := none }, true) := rfl

end View

namespace Outcome

variable {out : Outcome}

theorem Rests.done (client : later.client = view.client)
    (owner : later.vault.owner = view.vault.owner)
    (live : later.Live rotated clock) : later.done.Rests rotated clock view :=
  ⟨client, owner, live, fun _ goesOn => by cases goesOn⟩

theorem Rests.goesOn {stage : Stage} (client : later.client = view.client)
    (owner : later.vault.owner = view.vault.owner)
    (live : later.Live rotated clock) (staged : stage.Live clock later) :
    (later.goesOn stage).Rests rotated clock view := by
  refine ⟨client, owner, live, ?_⟩
  intro next goesOn
  cases goesOn
  exact staged

theorem Rests.emit (rests : out.Rests rotated clock view) (event : Event) :
    (out.emit event).Rests rotated clock view :=
  ⟨rests.client, rests.owner, rests.live, rests.stage⟩

theorem Rests.revoke (rests : out.Rests rotated clock view) (token : Token) :
    (out.revoke token).Rests rotated clock view := by
  refine ⟨rests.client, rests.owner, ?_, ?_⟩
  · exact rests.live.store rfl id id id id
  · intro next goesOn
    have staged := rests.stage next goesOn
    exact ⟨staged.shares, staged.old, staged.restores, staged.refreshes⟩

theorem Rests.revokeAll (rests : out.Rests rotated clock view)
    (taken : Option Session) : (out.revokeAll taken).Rests rotated clock view := by
  cases taken with
  | none => exact rests
  | some old => exact rests.revoke _

end Outcome

/-- The only request of a section is made last, with a token that no client
received a rotation of. -/
def Outcome.Presents (rotated : Token → Prop) (out : Outcome) : Prop :=
  (∀ token, .presented token ∉ out.events) ∨
    ∃ token, out.events = [.presented token] ∧ ¬ rotated token

namespace View

open Outcome

theorem Live.restoreStart (live : view.Live rotated clock) (gen : Nat) :
    (view.restoreStart gen .none).Rests rotated clock view ∧
      (view.restoreStart gen .none).Presents rotated := by
  unfold View.restoreStart
  split
  · exact ⟨.done rfl rfl live, Or.inl (by simp [View.done])⟩
  next on =>
  split
  · exact ⟨.done rfl rfl live, Or.inl (by simp [View.done])⟩
  split
  · rw [clear_none]
    refine ⟨.done rfl rfl ⟨by simp, live.session, live.on, live.live⟩,
      Or.inl (by simp [View.done])⟩
  · simp only [Vault.load, Faults.none, Bool.false_eq_true, if_false]
    split
    · next stored held =>
        obtain ⟨old, new⟩ := live.slot stored (Option.some.inj held)
        refine ⟨Rests.emit (.goesOn rfl rfl live ?_) _,
          Or.inr ⟨stored.refreshToken, rfl, new⟩⟩
        refine ⟨trivial, ?_, ?_, ?_⟩
        · intro token presents
          cases presents
          exact old
        · intro _ _ _ _
          exact eq_true_of_ne_false on
        · intro token same
          cases same
    · exact ⟨.done rfl rfl live, Or.inl (by simp [View.done])⟩

theorem Live.clearPersistedIfHolds (live : view.Live rotated clock)
    {gen : Nat} (refused : Token) :
    (view.clearPersistedIfHolds gen refused .none).done.Rests rotated clock
      view := by
  rcases clearPersistedIfHolds_cases view .none gen refused with same | ⟨_, _, _, _, _, cleared⟩
  · rw [same]
    exact .done rfl rfl live
  · rw [cleared, clear_none]
    exact .done rfl rfl ⟨by simp, live.session, live.on, live.live⟩

theorem Live.clearIfHolds (live : view.Live rotated clock) (rejected : Token) :
    (view.clearIfHolds rejected .none).done.Rests rotated clock view := by
  rcases clearIfHolds_cases view .none rejected with
    ⟨_, same⟩ | ⟨session, _, _, took⟩
  · rw [same]
    exact .done rfl rfl live
  · rw [took]
    refine .done rfl ?_ (live.signedOut rfl ?_)
    · split <;> rfl
    · intro stored held
      split at held
      · cases held
      · exact held

theorem Live.replaceUser (live : view.Live rotated clock) (epoch : Nat)
    (user : User) :
    (view.replaceUser epoch user .none).done.Rests rotated clock view := by
  rcases replaceUser_cases view .none epoch user with
    same | ⟨session, vault, open_, signedIn, _, rewrites, replaced⟩
  · rw [same]
    exact .done rfl rfl live
  · rw [replaced]
    have old := live.session session signedIn
    have on := live.on (by rw [signedIn]; rfl)
    have fresh : view.Mine → ¬ rotated session.refreshToken :=
      fun mine => live.live mine open_ session signedIn
    rcases rewrites with rfl | ⟨stored, mine, _, _, _, _, rfl⟩
    · refine .done rfl rfl ⟨live.slot, ?_, fun _ => on, ?_⟩
      · intro next signedIn'
        cases signedIn'
        exact old
      · intro mine _ next signedIn'
        cases signedIn'
        exact fresh mine
    · refine .done rfl rfl ⟨?_, ?_, fun _ => on, ?_⟩
      · intro next held
        cases held
        exact ⟨old, fresh mine⟩
      · intro next signedIn'
        cases signedIn'
        exact old
      · intro mine' _ next signedIn'
        cases signedIn'
        exact fresh mine

theorem Live.endSuperseded (live : view.Live rotated clock)
    (other : ¬ view.Mine) :
    (view.endSuperseded .none).Rests rotated clock view := by
  have vault : (view.signOut false .none).1.vault = view.vault := by
    rw [signOut_vault, if_neg]
    exact fun mine => other mine.2
  refine Rests.revokeAll (.done (signOut_client _) ?_ ?_) _
  · rw [vault]
  · have out : (⟨view.client, (view.signOut false .none).1.store,
        view.vault⟩ : View).Live rotated clock :=
      live.signedOut (signOut_session false) fun _ held => held
    have same : (view.signOut false .none).1 =
        ⟨view.client, (view.signOut false .none).1.store, view.vault⟩ := by
      conv_lhs => rw [show (view.signOut false .none).1 =
        ⟨(view.signOut false .none).1.client,
          (view.signOut false .none).1.store,
          (view.signOut false .none).1.vault⟩ from rfl, signOut_client, vault]
    rw [same]
    exact out

theorem Live.refreshOnce (live : view.Live rotated clock) (limited : Bool)
    (stays : view.store.closed = true → ∀ session ∈ view.store.session,
      view.vault.slot.map (·.refreshToken) = some session.refreshToken) :
    (view.refreshOnce .refreshSent limited .none).Rests rotated clock view ∧
      (limited = false →
        (view.refreshOnce .refreshSent limited .none).Presents rotated) := by
  unfold View.refreshOnce
  cases signedIn : view.store.session with
  | none =>
      exact ⟨.done rfl rfl live, fun _ => Or.inl (by simp [View.done])⟩
  | some session =>
      simp only
      have on := live.on (by rw [signedIn]; rfl)
      split
      · next other =>
          have notMine : ¬ view.Mine := by
            rintro ⟨_, owner⟩
            simp [owns, on.1, owner] at other
          refine ⟨live.endSuperseded notMine, fun _ => Or.inl ?_⟩
          simp [View.endSuperseded, signedIn, revokeAll, revoke, done]
      · next owns =>
          have mine : view.Mine := by
            refine ⟨on.1, ?_⟩
            simpa [View.owns, on.1] using owns
          split
          · exact ⟨.done rfl rfl live, fun _ => Or.inl (by simp [View.done])⟩
          · have fresh : ¬ rotated session.refreshToken := by
              cases shut : view.store.closed with
              | false => exact live.live mine shut session signedIn
              | true =>
                  obtain ⟨stored, held, same⟩ := Option.map_eq_some_iff.mp
                    (stays shut session signedIn)
                  rw [← same]
                  exact (live.slot stored held).2
            refine ⟨Rests.emit (.goesOn rfl rfl live ?_) _,
              fun _ => Or.inr ⟨session.refreshToken, rfl, fresh⟩⟩
            refine ⟨trivial, ?_, ?_, ?_⟩
            · intro token presents
              cases presents
              exact live.session session signedIn
            · intro _ _ _ same
              cases same
            · intro token same
              cases same
              exact ⟨on.1, on.2, fun _ => ⟨session, signedIn, rfl⟩⟩

variable {sent fresh : Token}

/-- The token whose rotation came in joins the rotated ones. -/
def Joined (rotated : Token → Prop) (sent : Token) (token : Token) : Prop :=
  rotated token ∨ token = sent

theorem not_joined (bound : ∀ token, rotated token → token.number < clock)
    (sentOld : sent.number < clock) (new : fresh.number = clock) :
    ¬ Joined rotated sent fresh := by
  rintro (old | rfl)
  · exact Nat.lt_irrefl _ (new ▸ bound fresh old)
  · exact Nat.lt_irrefl _ (new ▸ sentOld)

/-- The new token is held and stored. -/
theorem Live.mirrored {session : Session} {store : Store} {vault : Vault}
    (new : ¬ Joined rotated sent session.refreshToken)
    (number : session.refreshToken.number = clock)
    (held : store.session = some session) (slot : vault.slot = some session)
    (on : store.persistence = true ∧ store.persisted = true) :
    (⟨view.client, store, vault⟩ : View).Live (Joined rotated sent)
      (clock + 1) where
  slot stored same := by
    cases slot.symm.trans same
    exact ⟨number ▸ Nat.lt_succ_self _, new⟩
  session other same := by
    cases held.symm.trans same
    exact number ▸ Nat.lt_succ_self _
  on _ := on
  live _ _ other same := by
    cases held.symm.trans same
    exact new

theorem Mirrors.lands {marks kept : Table Token Nat} {session : Session}
    {marking : Marking} {vault : Vault} (mine : view.Mine)
    (mirrors : Mirrors view marks session .none marking vault kept) :
    vault.slot = some session ∧ vault.owner = view.vault.owner := by
  cases mirrors with
  | off off => cases off.symm.trans mine.1
  | landed => exact ⟨rfl, rfl⟩
  | failed _ fails => cases fails

theorem Live.restorePair (bound : ∀ token, rotated token → token.number < clock)
    {gen family : Nat} {stored : Session} {login : LoginId}
    (staged : (Stage.restoreSent gen stored family).Live clock view)
    (mine : view.Mine) (current : view.Current gen) :
    (view.restorePair gen stored family ⟨clock, login⟩ .none).Rests
      (Joined rotated stored.refreshToken) (clock + 1) view := by
  have new : ¬ Joined rotated stored.refreshToken ⟨clock, login⟩ :=
    not_joined bound (staged.old _ rfl) rfl
  unfold View.restorePair
  rcases installForLogin_cases view .none gen ⟨stored.user, ⟨clock, login⟩⟩
      (some family) with
    ⟨stale, _⟩ | ⟨_, _, taken, _⟩ | ⟨vault, marks, _, mirrors, installed⟩
  · exact (stale current).elim
  · exact (taken mine.2).elim
  · rw [installed]
    obtain ⟨slot, owner⟩ := mirrors.lands mine
    apply Rests.emit
    refine Rests.goesOn ?_ ?_ ?_ ?_
    · rfl
    · exact owner
    · exact .mirrored new rfl rfl slot ⟨mine.1, by simp [mine.1]⟩
    · exact .waits trivial rfl

theorem Live.rotatedElsewhere (live : view.Live rotated clock)
    (slot : ∀ stored, view.vault.slot = some stored →
      stored.refreshToken ≠ sent)
    (shut : view.store.closed = true) {store : Store}
    (session : store.session = view.store.session)
    (closed : store.closed = view.store.closed)
    (on : store.persistence = view.store.persistence)
    (kept : store.persisted = view.store.persisted) :
    ({ view with store := store } : View).Live (Joined rotated sent)
      (clock + 1) where
  slot stored held := by
    obtain ⟨old, new⟩ := live.slot stored held
    refine ⟨Nat.lt_succ_of_lt old, ?_⟩
    rintro (before | same)
    · exact new before
    · exact slot stored held same
  session other held :=
    Nat.lt_succ_of_lt (live.session other (session ▸ held))
  on signedIn := by
    rw [on, kept]
    exact live.on (session ▸ signedIn)
  live _ open_ := by
    rw [closed, shut] at open_
    cases open_

theorem followRotation_missed {vault : Vault}
    (missed : vault.followRotation .none sent fresh = (vault, false)) :
    ∀ stored, vault.slot = some stored → stored.refreshToken ≠ sent := by
  intro stored held same
  simp [Vault.followRotation, Vault.load, Faults.none, held, same] at missed

theorem Live.refreshPair (live : view.Live rotated clock)
    (bound : ∀ token, rotated token → token.number < clock)
    {login : LoginId} (staged : (Stage.refreshSent sent).Live clock view)
    (mine : view.Mine) :
    (view.commitPair sent ⟨clock, login⟩ true .none done).Rests
      (Joined rotated sent) (clock + 1) view := by
  have new : ¬ Joined rotated sent ⟨clock, login⟩ :=
    not_joined bound (staged.old _ rfl) rfl
  obtain ⟨on, kept, holds⟩ := staged.refreshes sent rfl
  unfold View.commitPair
  cases shut : view.store.closed with
  | true =>
      rcases Vault.followRotation_cases .none view.vault sent ⟨clock, login⟩ with
        missed | ⟨stored, held, _, followed⟩
      · rw [commitRefresh_discarded _ _ _ (by simp [shut])
          fun _ _ _ => missed]
        apply Rests.revoke
        refine Rests.done ?_ ?_ ?_
        · rfl
        · rfl
        exact live.rotatedElsewhere (followRotation_missed missed) shut rfl rfl
          rfl rfl
      · rw [commitRefresh_stored _ _ _ shut kept mine followed]
        refine Rests.done ?_ ?_ ⟨?_, ?_, live.on, ?_⟩
        · rfl
        · rfl
        · intro next same
          cases same
          exact ⟨Nat.lt_succ_self _, new⟩
        · intro other signedIn
          exact Nat.lt_succ_of_lt (live.session other signedIn)
        · intro _ open_
          cases open_.symm.trans shut
  | false =>
      obtain ⟨session, signedIn, ofToken⟩ := holds shut
      obtain ⟨vault, marks, mirrors, committed⟩ :=
        commitRefresh_committed .none sent ⟨clock, login⟩ true shut
          signedIn ofToken
      rw [committed]
      rcases mirrors with mirrors | ⟨_, other, _⟩
      · obtain ⟨slot, owner⟩ := mirrors.lands mine
        refine Rests.done ?_ ?_ ?_
        · rfl
        · exact owner
        exact .mirrored new rfl rfl slot ⟨on, kept⟩
      · exact (other mine.2).elim

end View

/-! ### The cases of a section -/

/-- Neither a request nor the answer to one. -/
def Event.plain : Event → Bool
  | .presented _ | .rotated _ => false
  | _ => true

structure Outcome.Good (rotated : Token → Prop) (clock : Nat) (view : View)
    (out : Outcome) : Prop where
  rests : out.Rests (fun token => rotated token ∨ .rotated token ∈ out.events)
    (clock + 1) view
  presents : out.Presents rotated
  grows : ∀ token, .rotated token ∈ out.events →
    view.Mine ∧ token.number < clock

namespace Outcome

variable {out : Outcome}

variable (out) in
theorem plain_revokeAll (taken : Option Session)
    (plain : ∀ event ∈ out.events, event.plain = true) :
    ∀ event ∈ (out.revokeAll taken).events, event.plain = true := by
  cases taken with
  | none => exact plain
  | some old =>
      intro event emitted
      rcases List.mem_cons.mp emitted with rfl | before
      · rfl
      · exact plain event before

theorem Good.of_plain (rests : out.Rests rotated (clock + 1) view)
    (plain : ∀ event ∈ out.events, event.plain = true) :
    out.Good rotated clock view := by
  have none : ∀ token, .rotated token ∉ out.events :=
    fun token emitted => by cases plain _ emitted
  refine ⟨?_, Or.inl ?_, fun token emitted => (none token emitted).elim⟩
  · simpa only [none, or_false] using rests
  · intro token emitted
    cases plain _ emitted

theorem Good.of_presents (rests : out.Rests rotated (clock + 1) view)
    (presents : out.Presents rotated)
    (none : ∀ token, .rotated token ∉ out.events) :
    out.Good rotated clock view := by
  refine ⟨?_, presents, fun token emitted => (none token emitted).elim⟩
  simpa only [none, or_false] using rests

/-- A pair that came in for `sent`. -/
theorem Good.of_pair {sent fresh : Token}
    (rests : out.Rests (View.Joined rotated sent) (clock + 1) view)
    (plain : ∀ event ∈ out.events, event.plain = true) (mine : view.Mine)
    (old : sent.number < clock) :
    ((out.emit (.rotated sent)).emit (.received fresh)).Good rotated clock
      view := by
  have only : ∀ token, .rotated token ∈
      ((out.emit (.rotated sent)).emit (.received fresh)).events ↔
      token = sent := by
    intro token
    simp only [emit, List.mem_cons, reduceCtorEq, Event.rotated.injEq,
      false_or, or_iff_left_iff_imp]
    intro emitted
    cases plain _ emitted
  refine ⟨?_, Or.inl ?_, ?_⟩
  · simp only [only]
    exact (rests.emit _).emit _
  · intro token emitted
    simp only [emit, List.mem_cons, reduceCtorEq, false_or] at emitted
    cases plain _ emitted
  · intro token emitted
    cases (only token).mp emitted
    exact ⟨mine, old⟩

end Outcome

namespace View

open Outcome

theorem restorePair_plain {gen family : Nat} {stored : Session} {token : Token}
    {faults : Faults} :
    ∀ event ∈ (view.restorePair gen stored family token faults).events,
      event.plain = true := by
  unfold View.restorePair
  split <;> simp [emit, revoke, goesOn, done, Event.plain]

theorem commitPair_plain {rotatedFrom fresh : Token} {faults : Faults} :
    ∀ event ∈ (view.commitPair rotatedFrom fresh true faults done).events,
      event.plain = true := by
  unfold View.commitPair
  split <;> simp [revoke, done, Event.plain]

theorem close_plain {faults : Faults} :
    ∀ event ∈ (view.close faults).events, event.plain = true := by
  unfold View.close
  simp only
  split
  · simp [done]
  · exact plain_revokeAll _ _ (by simp [done])

theorem refreshOnce_unrotated {limited : Bool} {faults : Faults} :
    ∀ token, .rotated token ∉
      (view.refreshOnce .refreshSent limited faults).events := by
  intro token
  unfold View.refreshOnce
  split
  · simp [done]
  · split
    · intro emitted
      have plain := plain_revokeAll
        (view.signOut false faults).1.done view.store.session
        (by simp [done])
      cases plain _ (by simpa [View.endSuperseded] using emitted)
    · split
      · simp [done]
      · simp [emit, goesOn]

theorem restoreStart_unrotated {gen : Nat} {faults : Faults} :
    ∀ token, .rotated token ∉ (view.restoreStart gen faults).events := by
  intro token
  unfold View.restoreStart
  split
  · simp [done]
  split
  · simp [done]
  split
  · simp [done]
  · split
    · simp [emit, goesOn]
    · simp [done]

theorem Live.refreshStart (live : view.Live rotated (clock + 1))
    (seen : Revision) (limited : Bool)
    (stays : limited = false → view.store.closed = true →
      ∀ session ∈ view.store.session,
        view.vault.slot.map (·.refreshToken) = some session.refreshToken) :
    (view.refreshStart seen limited .none).Good rotated clock view := by
  unfold View.refreshStart
  split
  · exact .of_plain (.done rfl rfl live) (by simp [done])
  · cases limited with
    | false =>
        obtain ⟨rests, presents⟩ := live.refreshOnce false (stays rfl)
        exact .of_presents rests (presents rfl) refreshOnce_unrotated
    | true =>
        -- Nothing is sent inside the wait of a 429.
        unfold View.refreshOnce
        cases signedIn : view.store.session with
        | none => exact .of_plain (.done rfl rfl live) (by simp [done])
        | some session =>
            have on := live.on (by rw [signedIn]; rfl)
            simp only [if_true]
            split
            · next other =>
                have notMine : ¬ view.Mine := by
                  rintro ⟨_, owner⟩
                  simp [owns, on.1, owner] at other
                exact .of_plain (live.endSuperseded notMine)
                  (plain_revokeAll _ _ (by simp [done]))
            · exact .of_plain (.done rfl rfl live) (by simp [done])

theorem Live.close (live : view.Live rotated (clock + 1)) :
    (view.close .none).Good rotated clock view := by
  have vault : (view.signOut true .none).1.vault = view.vault := by
    rw [signOut_vault, if_neg]
    rintro ⟨never, _⟩
    cases never
  have out : (⟨view.client, (view.signOut true .none).1.store,
      view.vault⟩ : View).Live rotated (clock + 1) :=
    live.signedOut (signOut_session true) fun _ held => held
  have same : (view.signOut true .none).1 =
      ⟨view.client, (view.signOut true .none).1.store, view.vault⟩ := by
    have client := @signOut_client view .none true
    rw [← vault, ← client]
  refine .of_plain ?_ close_plain
  unfold View.close
  simp only
  rw [same]
  split
  · exact .done rfl rfl out
  · apply Rests.revokeAll
    exact .done rfl rfl out

end View

open Outcome in
theorem resume_good {stage : Stage} {input : Input} {out : Outcome}
    (bound : ∀ token, rotated token → token.number < clock)
    (live : view.Live rotated clock) (staged : stage.Live clock view)
    (works : input.works) (keepable : view.Keepable stage input)
    (resumed : resume clock view stage input = some out) :
    out.Good rotated clock view := by
  have later := live.mono
  have idle : view.done.Good rotated clock view :=
    .of_plain (.done rfl rfl later) (by simp [View.done])
  cases stage with
  | restoreQueued gen =>
      cases input with
      | proceed faults =>
          cases works
          cases resumed
          obtain ⟨rests, presents⟩ := later.restoreStart gen
          refine .of_presents rests presents View.restoreStart_unrotated
      | _ => cases resumed
  | restoreSent gen stored family =>
      cases input with
      | failed =>
          cases resumed
          exact idle
      | refused faults =>
          cases works
          cases resumed
          exact .of_plain ((later.clearPersistedIfHolds _).emit _)
            (by simp [emit, View.done, Event.plain])
      | pair faults =>
          cases works
          cases resumed
          exact .of_pair
            (View.Live.restorePair bound staged keepable.1 keepable.2)
            View.restorePair_plain keepable.1 (staged.old _ rfl)
      | _ => cases resumed
  | refreshQueued seen =>
      cases input with
      | proceed faults =>
          cases works
          cases resumed
          exact later.refreshStart seen false fun _ => keepable
      | limited =>
          cases resumed
          exact later.refreshStart seen true fun never => by cases never
      | _ => cases resumed
  | refreshSent token =>
      cases input with
      | failed =>
          cases resumed
          exact idle
      | refused faults =>
          cases works
          cases resumed
          exact .of_plain ((later.clearIfHolds token).emit _)
            (by simp [emit, View.done, Event.plain])
      | pair faults =>
          cases works
          cases resumed
          exact .of_pair (live.refreshPair bound staged keepable)
            View.commitPair_plain keepable (staged.old _ rfl)
      | _ => cases resumed
  | profileOut epoch =>
      cases input with
      | me user faults =>
          cases works
          cases resumed
          exact .of_plain (later.replaceUser epoch user) (by simp [View.done])
      | failed =>
          cases resumed
          exact idle
      | dropped =>
          cases resumed
          exact idle
      | _ => cases resumed
  | closing =>
      cases input with
      | proceed faults =>
          cases works
          cases resumed
          exact later.close
      | _ => cases resumed
  | _ => exact staged.shares.elim

/-- A caller's operation presents nothing, and leaves the other tasks what they
rely on. -/
theorem begin_good {op : Op} {out : Outcome}
    (live : view.Live rotated clock)
    (shares : op = .enable ∨ op = .restore ∨ op = .refresh ∨ op = .drop)
    (enables : op ≠ .enable) (begun : begin view op = some out) :
    out.Good rotated clock view ∧ view.Frames out.view := by
  have later := live.mono
  rcases shares with rfl | rfl | rfl | rfl
  · exact (enables rfl).elim
  · cases begun
    refine ⟨.of_plain (.emit ?_ _)
      (by simp [Outcome.emit, View.goesOn, Event.plain]),
      id, id, fun open_ => ⟨open_, rfl⟩⟩
    apply Outcome.Rests.goesOn
    · rfl
    · rfl
    · exact later.store rfl id id id id
    · exact .waits trivial rfl
  · cases begun
    refine ⟨.of_plain (.goesOn rfl rfl later ?_) (by simp [View.goesOn]),
      id, id, fun open_ => ⟨open_, rfl⟩⟩
    exact .waits trivial rfl
  · cases begun
    refine ⟨.of_plain (.goesOn rfl rfl ?_ ?_) (by simp [View.goesOn]),
      id, id, fun open_ => by cases open_⟩
    · exact later.store rfl id id id fun open_ => by cases open_
    · exact .waits trivial rfl

theorem View.signOut_frames (faults : Faults) :
    view.Frames (view.signOut true faults).1 := by
  refine ⟨by simp, ?_, by simp⟩
  intro kept
  simpa [View.signOut, Store.newEpoch] using kept

theorem Outcome.frames_revokeAll {out : Outcome} (taken : Option Session)
    (frames : view.Frames out.view) :
    view.Frames (out.revokeAll taken).view := by
  cases taken with
  | none => exact frames
  | some old => exact ⟨frames.on, frames.kept, frames.session⟩

/-- A section outside the refresh lock leaves the others what they rely on. -/
theorem resume_frames {stage : Stage} {input : Input} {out : Outcome}
    (shares : stage.Shares) (waits : stage.holdsRefresh = false)
    (takes : stage.takesRefresh input = false)
    (resumed : resume clock view stage input = some out) :
    view.Frames out.view := by
  have same : view.Frames view := ⟨id, id, fun open_ => ⟨open_, rfl⟩⟩
  cases stage with
  | restoreQueued gen =>
      cases input with
      | proceed faults => cases takes
      | _ => cases resumed
  | refreshQueued seen =>
      cases input with
      | proceed faults => cases takes
      | limited => cases takes
      | _ => cases resumed
  | profileOut epoch =>
      cases input with
      | me user faults => cases takes
      | failed =>
          cases resumed
          exact same
      | dropped =>
          cases resumed
          exact same
      | _ => cases resumed
  | closing =>
      cases input with
      | proceed faults =>
          cases resumed
          unfold View.close
          simp only
          split
          · exact View.signOut_frames faults
          · exact Outcome.frames_revokeAll _ (View.signOut_frames faults)
      | _ => cases resumed
  | restoreSent gen stored family => cases waits
  | refreshSent token => cases waits
  | _ => exact shares.elim

end

/-! ### Every run -/

variable {system next : System}

theorem rotated_append {news : List Event} {client : ClientId}
    {log : List Entry} {token : Token} :
    Rotated (news.map (system.entry client) ++ log) token ↔
      Rotated log token ∨ .rotated token ∈ news := by
  simp only [Rotated, List.mem_append, List.mem_map]
  constructor
  · rintro ⟨entry, ⟨event, emitted, rfl⟩ | old, same⟩
    · exact Or.inr (same ▸ emitted)
    · exact Or.inl ⟨entry, old, same⟩
  · rintro (⟨entry, old, same⟩ | emitted)
    · exact ⟨entry, Or.inr old, same⟩
    · exact ⟨_, Or.inl ⟨_, emitted, rfl⟩, rfl⟩

theorem neverReplayed_append {news : List Event} {client : ClientId}
    {log : List Entry} (kept : NeverReplayed log)
    (presents : (∀ token, .presented token ∉ news) ∨
      ∃ token, news = [.presented token] ∧ ¬ Rotated log token) :
    NeverReplayed (news.map (system.entry client) ++ log) := by
  rcases presents with none | ⟨token, rfl, new⟩
  · induction news with
    | nil => exact kept
    | cons event rest ih =>
        refine ⟨?_, ih fun token emitted =>
          none token (List.mem_cons_of_mem _ emitted)⟩
        cases event with
        | presented token => exact (none token List.mem_cons_self).elim
        | _ => trivial
  · exact ⟨new, kept⟩

structure Unreplayed (system : System) : Prop where
  slot : ∀ stored, system.vault.slot = some stored →
    stored.refreshToken.number < system.clock ∧
      ¬ Rotated system.log stored.refreshToken
  clients : ∀ client store, system.clients.get? client = some store →
    (system.view client store).Live (Rotated system.log) system.clock
  tasks : ∀ id task, system.tasks.get? id = some task →
    ∃ store, system.clients.get? task.client = some store ∧
      task.stage.Live system.clock (system.view task.client store)
  bound : ∀ token, Rotated system.log token → token.number < system.clock
  replayed : NeverReplayed system.log
  one : OneFlight system

theorem Unreplayed.land (unreplayed : Unreplayed system) {client : ClientId}
    {store : Store} {id : TaskId} {out : Outcome}
    (found : system.clients.get? client = some store)
    (good : out.Good (Rotated system.log) system.clock
      (system.view client store))
    (others : ∀ other task, other ≠ id →
      system.tasks.get? other = some task → task.client = client →
      task.stage.Live system.clock (system.view client store) →
      task.stage.Live (system.clock + 1) out.view)
    (one : OneFlight (system.land client id out)) :
    Unreplayed (system.land client id out) := by
  have log : Rotated (system.land client id out).log = fun token =>
      Rotated system.log token ∨ .rotated token ∈ out.events := by
    funext token
    exact propext rotated_append
  have sameView : (system.land client id out).view client out.view.store =
      out.view := by
    have same : out.view.client = client := good.rests.client
    rw [← same]
    rfl
  have live : out.view.Live (Rotated (system.land client id out).log)
      (system.clock + 1) := by
    rw [log]
    exact good.rests.live
  refine ⟨live.slot, ?_, ?_, ?_, ?_, one⟩
  · intro other held found'
    rcases System.land_client found' with ⟨rfl, rfl⟩ | ⟨different, before⟩
    · rw [sameView]
      exact live
    · have old := (unreplayed.clients other held before).mono
      refine ⟨live.slot, old.session, old.on, ?_⟩
      intro mine open_ session signedIn past
      have owner : system.vault.owner = some other :=
        good.rests.owner.symm.trans mine.2
      rw [log] at past
      rcases past with before | new
      · exact old.live ⟨mine.1, owner⟩ open_ session signedIn before
      · cases owner.symm.trans (good.grows _ new).1.2
        exact different rfl
  · intro other task running
    rcases System.land_task running with
      ⟨stage, goesOn, rfl, rfl⟩ | ⟨different, before⟩
    · refine ⟨out.view.store, by simp [System.land], ?_⟩
      rw [sameView]
      exact good.rests.stage stage goesOn
    · obtain ⟨held, foundTask, staged⟩ := unreplayed.tasks other task before
      by_cases same : task.client = client
      · cases same
        cases found.symm.trans foundTask
        refine ⟨out.view.store, by simp [System.land], ?_⟩
        rw [sameView]
        exact others other task different before rfl staged
      · refine ⟨held, ?_, staged.framed
          ⟨fun on => on, fun kept => kept, fun open_ => ⟨open_, rfl⟩⟩⟩
        simp only [System.land, Table.get?_put, same, if_false]
        exact foundTask
  · intro token past
    rw [log] at past
    rcases past with before | new
    · exact Nat.lt_succ_of_lt (unreplayed.bound token before)
    · exact Nat.lt_succ_of_lt (good.grows token new).2
  · exact neverReplayed_append unreplayed.replayed good.presents

theorem Unreplayed.enable (unreplayed : Unreplayed system) {client : ClientId}
    {store : Store} {id : TaskId} {out : Outcome}
    (found : system.clients.get? client = some store)
    (alone : ∀ other task, system.tasks.get? other = some task →
      task.client ≠ client)
    (begun : begin (system.view client store) .enable = some out)
    (one : OneFlight (system.land client id out)) :
    Unreplayed (system.land client id out) := by
  simp only [begin] at begun
  split at begun
  · cases begun
  next fresh =>
    simp only [System.view, not_or, Bool.not_eq_true,
      Option.isSome_eq_false_iff, Option.isNone_iff_eq_none] at fresh
    cases begun
    have slot : ∀ stored, system.vault.slot = some stored →
        stored.refreshToken.number < system.clock + 1 ∧
          ¬ Rotated system.log stored.refreshToken := by
      intro stored held
      obtain ⟨old, new⟩ := unreplayed.slot stored held
      exact ⟨Nat.lt_succ_of_lt old, new⟩
    refine ⟨slot, ?_, ?_, ?_, unreplayed.replayed, one⟩
    · intro other held found'
      rcases System.land_client found' with ⟨rfl, rfl⟩ | ⟨different, before⟩
      · have nobody : ∀ session, store.session ≠ some session := by
          simp [fresh.2]
        refine ⟨slot, fun session signedIn => (nobody _ signedIn).elim, ?_,
          fun _ _ session signedIn => (nobody _ signedIn).elim⟩
        intro signedIn
        have signedIn' : store.session.isSome := signedIn
        simp [fresh.2] at signedIn'
      · have old := (unreplayed.clients other held before).mono
        refine ⟨slot, old.session, old.on, ?_⟩
        intro mine
        cases mine.2
        exact (different rfl).elim
    · intro other task running
      rcases System.land_task running with ⟨_, goesOn, _⟩ | ⟨_, before⟩
      · cases goesOn
      · have different := alone other task before
        obtain ⟨held, foundTask, staged⟩ := unreplayed.tasks other task before
        refine ⟨held, ?_, staged.framed
          ⟨fun on => on, fun kept => kept, fun open_ => ⟨open_, rfl⟩⟩⟩
        simp only [System.land, Table.get?_put, different, if_false]
        exact foundTask
    · intro token past
      exact Nat.lt_succ_of_lt (unreplayed.bound token past)

theorem step_unreplayed (unreplayed : Unreplayed system) {action : Action}
    (allowed : action.Shares ∧ AnswerKept system action)
    (taken : step system action = some next) : Unreplayed next := by
  have one := step_oneFlight unreplayed.one taken
  cases action with
  | create client =>
      simp only [step] at taken
      split at taken
      · cases taken
      next free =>
        cases taken
        have known : ∀ {other store}, system.clients.get? other = some store →
            other ≠ client := by
          intro other store found same
          exact free (Table.contains_iff.mpr ⟨store, same ▸ found⟩)
        refine ⟨unreplayed.slot, ?_, ?_, unreplayed.bound, unreplayed.replayed,
          one⟩
        · intro other store found
          simp only [Table.get?_put] at found
          split at found
          · cases found
            exact ⟨unreplayed.slot, by simp [System.view, Store.new],
              by simp [System.view, Store.new],
              by simp [System.view, Store.new]⟩
          · exact unreplayed.clients other store found
        · intro id task running
          obtain ⟨store, found, staged⟩ := unreplayed.tasks id task running
          exact ⟨store, (Table.get?_put_ne _ _ (known found)).trans found,
            staged⟩
  | begin client op id =>
      obtain ⟨store, out, found, _, _, alone, begun, rfl⟩ := step_begin taken
      by_cases enables : op = .enable
      · subst enables
        exact unreplayed.enable found (alone rfl) begun one
      · obtain ⟨good, frames⟩ := begin_good
          (unreplayed.clients client store found) allowed.1 enables begun
        exact unreplayed.land found good
          (fun _ _ _ _ _ staged => staged.framed frames) one
  | resume id input =>
      obtain ⟨task, store, out, running, found, ready, resumed, rfl⟩ :=
        step_resume taken
      obtain ⟨store', found', staged⟩ := unreplayed.tasks id task running
      cases found.symm.trans found'
      have keepable : (system.view task.client store).Keepable task.stage
          input := by
        apply allowed.2 task
        · simpa using running
        · simpa using found
      have good := resume_good unreplayed.bound
        (unreplayed.clients task.client store found) staged allowed.1 keepable
        resumed
      apply unreplayed.land found good _ one
      intro other task' different running' same staged'
      -- Under the refresh lock nobody else has presented a token.
      by_cases locked : task.stage.holdsRefresh = true ∨
          task.stage.takesRefresh input = true
      · apply Stage.Live.waits staged'.shares
        rcases locked with held | takes
        · by_contra both
          exact different (unreplayed.one other id task' task running' running
            same (eq_true_of_ne_false both) held)
        · exact System.refreshFree_iff.mp (ready.1 takes) other task' running'
            same
      · simp only [not_or, Bool.not_eq_true] at locked
        exact staged'.framed
          (resume_frames staged.shares locked.1 locked.2 resumed)
  | leave client token =>
      simp only [step] at taken
      split at taken
      next =>
        cases taken
        have same : Rotated (system.entry client (.sentLogout token) ::
            system.log) = Rotated system.log := by
          funext other
          apply propext
          have grown : Rotated ([Event.sentLogout token].map
              (system.entry client) ++ system.log) other ↔ _ :=
            rotated_append
          simpa using grown
        refine ⟨?_, ?_, unreplayed.tasks, ?_, ⟨trivial, unreplayed.replayed⟩,
          one⟩
        · rw [same]
          exact unreplayed.slot
        · rw [same]
          exact unreplayed.clients
        · rw [same]
          exact unreplayed.bound
      next => cases taken
  | restart => exact allowed.1.elim

theorem launch_unreplayed (slot : Option Session) :
    Unreplayed (System.launch slot) where
  slot stored held := by
    cases held
    exact ⟨Nat.lt_succ_self _, fun ⟨_, member, _⟩ => by cases member⟩
  clients _ _ found := by cases found
  tasks _ _ running := by cases running
  bound _ past := by
    obtain ⟨_, member, _⟩ := past
    cases member
  replayed := trivial
  one _ _ _ _ running := by cases running

/-- Whatever an earlier process left in the slot: while each new token finds its
client still able to keep it, no token is presented again after its
rotation came in. -/
theorem never_replayed_of_answersKept {slot : Option Session}
    {actions : List Action}
    (kept : Along step
      (fun system action => action.Shares ∧ AnswerKept system action)
      (System.launch slot) actions)
    (reached : run step (System.launch slot) actions = some system) :
    NeverReplayed system.log :=
  (run_invariant (fun unreplayed allowed taken =>
    step_unreplayed unreplayed allowed taken)
    (launch_unreplayed slot) kept reached).replayed

/-! ### A claim that falls into a refresh -/

/-- The session that an earlier process stored. -/
def storedBefore : Session := ⟨⟨7, 0⟩, ⟨0, 0⟩⟩

/-- A client that restores and then refreshes. -/
def refreshing : List Action :=
  [.create 1, .begin 1 .enable 0, .begin 1 .restore 0,
    .resume 0 (.proceed .none), .resume 0 (.pair .none), .resume 0 .failed,
    .begin 1 .refresh 1, .resume 1 (.proceed .none)]

/-- A second client claims the slot before the answer, and restores after it. -/
def claimedRun : List Action :=
  refreshing ++ [.create 2, .begin 2 .enable 2, .begin 2 .restore 2,
    .resume 1 (.pair .none), .resume 2 (.proceed .none)]

theorem replayed_after_claim :
    ∃ system, run step (System.launch storedBefore) claimedRun = some system ∧
      (∀ action ∈ claimedRun, action.Shares) ∧
      ¬ NeverReplayed system.log := by
  refine ⟨_, rfl, ?_⟩
  decide +kernel

/-- The second client comes after the answer. -/
def succeededRun : List Action :=
  refreshing ++ [.resume 1 (.pair .none), .create 2, .begin 2 .enable 2,
    .begin 2 .restore 2, .resume 2 (.proceed .none), .resume 2 (.pair .none)]

theorem never_replayed_of_answersKept_succeededRun :
    ∃ system, run step (System.launch storedBefore) succeededRun =
        some system ∧ NeverReplayed system.log := by
  obtain ⟨system, reached⟩ : ∃ system,
      run step (System.launch storedBefore) succeededRun = some system :=
    ⟨_, rfl⟩
  refine ⟨system, reached, never_replayed_of_answersKept ?_ reached⟩
  decide +kernel

end Brook.SignedIn
