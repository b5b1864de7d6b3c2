import Brook.Ws.Sockets
import Brook.Transition.Run

namespace Brook.Ws

open Auth Transition

variable {sockets next : Sockets} {conn : ConnId} {connection : Connection}

/-- What an open connection owes every revocation: the finished sweeps find it
young enough, and so do the running ones, or they are about to close it. -/
def Fresh (sockets : Sockets) (conn : ConnId) (connection : Connection) :
    Prop :=
  (∀ cutoff, (connection.user, cutoff) ∈ sockets.swept →
    cutoff ≤ connection.issuedMs) ∧
  ∀ id sweep, sockets.sweeps.get? id = some sweep →
    sweep.user = connection.user →
    sweep.cutoff ≤ connection.issuedMs ∨ conn ∈ sweep.stale

structure Guarded (sockets : Sockets) : Prop where
  finished : ∀ user cutoff, (user, cutoff) ∈ sockets.swept →
    cutoff ≤ sockets.cutoff user
  running : ∀ id sweep, sockets.sweeps.get? id = some sweep →
    sweep.cutoff ≤ sockets.cutoff sweep.user
  fresh : ∀ conn connection, sockets.conns.get? conn = some connection →
    connection.phase.live = true → connection.closed = false →
    Fresh sockets conn connection
  logged : ∀ conn reason, .closed conn reason ∈ sockets.log →
    ∃ connection, sockets.conns.get? conn = some connection ∧
      connection.closed = true
  silent : ∀ later earlier conn reason,
    sockets.log = later ++ .closed conn reason :: earlier →
    .handled conn ∉ later

theorem guarded_start (users : Table UserId Auth.UserRow) :
    Guarded (Sockets.start users) := by
  constructor <;> simp [Sockets.start]

/-- Every cutoff that was ever swept with is in `_cutoffs` from its start on. -/
theorem Guarded.fresh_of_cutoff (guarded : Guarded sockets)
    (young : sockets.cutoff connection.user ≤ connection.issuedMs) :
    Fresh sockets conn connection := by
  constructor
  · intro cutoff mem
    exact Int.le_trans (guarded.finished _ _ mem) young
  · intro id sweep stored same
    have known := guarded.running id sweep stored
    rw [same] at known
    exact Or.inl (Int.le_trans known young)

/-- A closed connection stays closed. -/
def KeepsClosed (sockets : Sockets) (conn : ConnId)
    (connection : Connection) : Prop :=
  ∀ old, sockets.conns.get? conn = some old → old.closed = true →
    connection.closed = true

theorem Guarded.setConn (guarded : Guarded sockets)
    (keeps : KeepsClosed sockets conn connection)
    (fresh : connection.phase.live = true → connection.closed = false →
      Fresh sockets conn connection) :
    Guarded (sockets.setConn conn connection) where
  finished := guarded.finished
  running := guarded.running
  fresh := by
    intro other found stored live isOpen
    by_cases same : other = conn
    · subst same
      simp only [Sockets.setConn, Table.get?_put_self, Option.some.injEq]
        at stored
      subst stored
      exact fresh live isOpen
    · rw [Sockets.setConn, Table.get?_put_ne _ _ same] at stored
      exact guarded.fresh other found stored live isOpen
  logged := by
    intro other reason mem
    obtain ⟨found, stored, closed⟩ := guarded.logged other reason mem
    by_cases same : other = conn
    · subst same
      exact ⟨connection, by simp [Sockets.setConn], keeps found stored closed⟩
    · refine ⟨found, ?_, closed⟩
      rw [Sockets.setConn, Table.get?_put_ne _ _ same]
      exact stored
  silent := guarded.silent

theorem silent_cons {log : List SocketEvent} {event : SocketEvent}
    (silent : ∀ later earlier conn reason,
      log = later ++ .closed conn reason :: earlier → .handled conn ∉ later)
    (unclosed : ∀ conn, event = .handled conn →
      ∀ reason, SocketEvent.closed conn reason ∉ log) :
    ∀ later earlier conn reason,
      event :: log = later ++ .closed conn reason :: earlier →
      .handled conn ∉ later := by
  intro later earlier conn reason split
  cases later with
  | nil => simp
  | cons head tail =>
      rw [List.cons_append, List.cons.injEq] at split
      obtain ⟨rfl, rest⟩ := split
      rw [List.mem_cons, not_or]
      refine ⟨?_, silent tail earlier conn reason rest⟩
      intro same
      apply unclosed conn same.symm reason
      simp [rest]

theorem Guarded.close (guarded : Guarded sockets)
    (keeps : KeepsClosed sockets conn connection) (reason : CloseReason) :
    Guarded (sockets.close conn connection reason) := by
  unfold Sockets.close
  split
  · rename_i closed
    exact guarded.setConn keeps (by simp [closed])
  · have shut : Guarded (sockets.setConn conn { connection with closed := true }) :=
      guarded.setConn (fun _ _ _ => rfl) (by simp)
    refine ⟨shut.finished, shut.running, shut.fresh, ?_, ?_⟩
    · intro other otherReason mem
      rcases List.mem_cons.mp mem with same | old
      · cases same
        exact ⟨{ connection with closed := true }, by simp [Sockets.setConn], rfl⟩
      · exact shut.logged other otherReason old
    · exact silent_cons shut.silent (by simp)

theorem Guarded.handle (guarded : Guarded sockets)
    (stored : sockets.conns.get? conn = some connection)
    (isOpen : connection.closed = false) :
    Guarded { sockets with log := .handled conn :: sockets.log } where
  finished := guarded.finished
  running := guarded.running
  fresh := guarded.fresh
  logged := by
    intro other reason mem
    apply guarded.logged other reason
    simpa using mem
  silent := by
    apply silent_cons guarded.silent
    intro other same reason mem
    cases same
    obtain ⟨found, storedFound, closed⟩ := guarded.logged conn reason mem
    rw [stored, Option.some.injEq] at storedFound
    simp [← storedFound, isOpen] at closed

/-! ### The steps -/

theorem keepsClosed_of_stored (stored : sockets.conns.get? conn = some connection)
    {changed : Connection} (same : changed.closed = connection.closed) :
    KeepsClosed sockets conn changed := by
  intro old found closed
  rw [stored, Option.some.injEq] at found
  rw [same, found, closed]

/-- A step that leaves `closed`, the user and the token's age as they are. -/
theorem Guarded.setPhase (guarded : Guarded sockets)
    (stored : sockets.conns.get? conn = some connection) (phase : Phase)
    (wasLive : phase.live = true → connection.phase.live = true) :
    Guarded (sockets.setConn conn { connection with phase }) := by
  have keeps : KeepsClosed sockets conn { connection with phase } :=
    keepsClosed_of_stored stored rfl
  apply guarded.setConn keeps
  intro live isOpen
  exact guarded.fresh conn connection stored (wasLive live) isOpen

theorem mem_stale {user : UserId} {cutoff : Int}
    (stored : sockets.conns.get? conn = some connection)
    (live : connection.phase.live = true) (same : connection.user = user)
    (old : connection.issuedMs < cutoff) :
    conn ∈ (sockets.conns.filter fun _ connection =>
      connection.phase.live && connection.user = user &&
        decide (connection.issuedMs < cutoff)).rows.map Prod.fst := by
  refine List.mem_map.mpr ⟨(conn, connection), ?_, rfl⟩
  rw [Table.mem_rows, Table.get?_filter, Option.filter_eq_some_iff]
  exact ⟨stored, by simp [live, same, old]⟩

theorem revokeStep_guarded (guarded : Guarded sockets) {id : SweepId}
    {user : UserId} {cutoff : Int} :
    Guarded (revokeStep sockets id user cutoff) := by
  have grows : ∀ other,
      sockets.cutoff other ≤ (revokeStep sockets id user cutoff).cutoff other := by
    intro other
    simp only [revokeStep, Sockets.cutoff, Table.get?_put]
    split
    · rename_i same
      subst same
      exact Int.le_max_right _ _
    · exact Int.le_refl _
  constructor
  · intro other earlier mem
    exact Int.le_trans (guarded.finished other earlier mem) (grows other)
  · intro other sweep stored
    simp only [revokeStep, Table.get?_put] at stored
    split at stored
    · cases stored
      simp [revokeStep, Sockets.cutoff, Int.le_max_left]
    · exact Int.le_trans (guarded.running other sweep stored) (grows _)
  · intro other found stored live isOpen
    have before := guarded.fresh other found stored live isOpen
    refine ⟨before.1, ?_⟩
    intro otherSweep sweep storedSweep same
    simp only [revokeStep, Table.get?_put] at storedSweep
    split at storedSweep
    · cases storedSweep
      rcases Int.lt_or_le found.issuedMs cutoff with old | young
      · exact Or.inr (mem_stale stored live same.symm old)
      · exact Or.inl young
    · exact before.2 otherSweep sweep storedSweep same
  · exact guarded.logged
  · exact guarded.silent

/-- A sweep that has come to the end of its list found or left nothing stale. -/
theorem Guarded.endSweep (guarded : Guarded sockets) {id : SweepId}
    {sweep : Sweep} (stored : sockets.sweeps.get? id = some sweep)
    (done : sweep.stale = []) :
    Guarded { sockets with
      sweeps := sockets.sweeps.filter fun other _ => other ≠ id
      swept := (sweep.user, sweep.cutoff) :: sockets.swept } where
  finished := by
    intro user cutoff mem
    rcases List.mem_cons.mp mem with same | old
    · cases same
      exact guarded.running id sweep stored
    · exact guarded.finished user cutoff old
  running := by
    intro other found storedFound
    simp only [Table.get?_filter, Option.filter_eq_some_iff] at storedFound
    exact guarded.running other found storedFound.1
  fresh := by
    intro conn connection storedConn live isOpen
    have before := guarded.fresh conn connection storedConn live isOpen
    constructor
    · intro cutoff mem
      rcases List.mem_cons.mp mem with same | old
      · rw [Prod.mk.injEq] at same
        obtain ⟨sameUser, rfl⟩ := same
        simpa [done] using before.2 id sweep stored sameUser.symm
      · exact before.1 cutoff old
    · intro other found storedFound same
      simp only [Table.get?_filter, Option.filter_eq_some_iff] at storedFound
      exact before.2 other found storedFound.1 same
  logged := guarded.logged
  silent := guarded.silent

/-- The rest of a sweep, once the connection at its head is closed or gone. -/
theorem Guarded.nextStale (guarded : Guarded sockets) {id : SweepId}
    {sweep : Sweep} {rest : List ConnId}
    (stored : sockets.sweeps.get? id = some sweep)
    (stale : sweep.stale = conn :: rest)
    (closed : ∀ connection, sockets.conns.get? conn = some connection →
      connection.closed = true) :
    Guarded { sockets with
      sweeps := sockets.sweeps.put id { sweep with stale := rest } } where
  finished := guarded.finished
  running := by
    intro other found storedFound
    simp only [Table.get?_put] at storedFound
    split at storedFound
    · cases storedFound
      exact guarded.running id sweep stored
    · exact guarded.running other found storedFound
  fresh := by
    intro other found storedConn live isOpen
    have before := guarded.fresh other found storedConn live isOpen
    refine ⟨before.1, ?_⟩
    intro otherSweep foundSweep storedSweep same
    simp only [Table.get?_put] at storedSweep
    split at storedSweep
    · cases storedSweep
      rcases before.2 id sweep stored same with young | listed
      · exact Or.inl young
      · rw [stale, List.mem_cons] at listed
        rcases listed with rfl | later
        · simp [closed found storedConn] at isOpen
        · exact Or.inr later
    · exact before.2 otherSweep foundSweep storedSweep same
  logged := guarded.logged
  silent := guarded.silent

theorem sweepStep_guarded (guarded : Guarded sockets) {id : SweepId}
    {sweep : Sweep} (stored : sockets.sweeps.get? id = some sweep) :
    Guarded (sweepStep sockets id sweep) := by
  unfold sweepStep
  split
  · rename_i done
    exact guarded.endSweep stored done
  · rename_i conn rest stale
    dsimp only
    split
    · rename_i missing
      exact guarded.nextStale stored stale (by simp [missing])
    · rename_i connection storedConn
      -- the close and the move down the list are one step
      have apart : ∀ sweeps,
          { sockets with sweeps }.close conn connection .sessionRevoked =
            { sockets.close conn connection .sessionRevoked with sweeps } := by
        intro sweeps
        unfold Sockets.close
        split <;> rfl
      have same : (sockets.close conn connection .sessionRevoked).sweeps =
          sockets.sweeps := by
        unfold Sockets.close
        split <;> rfl
      have shut := guarded.close (keepsClosed_of_stored storedConn rfl)
        .sessionRevoked
      rw [apart, ← same]
      apply shut.nextStale (same ▸ stored) stale
      intro found storedFound
      unfold Sockets.close at storedFound
      split at storedFound
      · rename_i closed
        simp only [Sockets.setConn, Table.get?_put_self,
          Option.some.injEq] at storedFound
        exact storedFound ▸ closed
      · simp only [Sockets.setConn, Table.get?_put_self,
          Option.some.injEq] at storedFound
        rw [← storedFound]

theorem readStep_guarded (guarded : Guarded sockets)
    (stored : sockets.conns.get? conn = some connection)
    (taken : readStep sockets conn connection = some next) : Guarded next := by
  unfold readStep at taken
  split at taken
  · split at taken
    all_goals
      cases taken
      exact guarded.setPhase stored _ (by simp [Phase.live])
  · rename_i phase
    cases taken
    exact guarded.setPhase stored _ (by simp [phase, Phase.live])
  · cases taken

theorem enterStep_guarded (guarded : Guarded sockets)
    (stored : sockets.conns.get? conn = some connection) :
    Guarded (enterStep sockets conn connection) := by
  have keeps : KeepsClosed sockets conn { connection with phase := .serving } :=
    keepsClosed_of_stored stored rfl
  unfold enterStep
  dsimp only
  split
  · exact guarded.close keeps .sessionRevoked
  · rename_i young
    apply guarded.setConn keeps
    intro _ _
    exact guarded.fresh_of_cutoff (by simpa using young)

theorem settleStep_guarded (guarded : Guarded sockets)
    (stored : sockets.conns.get? conn = some connection) (authed : Authed) :
    Guarded (settleStep sockets conn connection authed) := by
  have keeps : ∀ issuedMs, KeepsClosed sockets conn
      { connection with phase := .serving, issuedMs } :=
    fun _ => keepsClosed_of_stored stored rfl
  unfold settleStep
  dsimp only
  split
  iterate 3 exact guarded.close (keeps connection.issuedMs) _
  split
  · exact guarded.close (keeps connection.issuedMs) _
  · rename_i user issuedMs _
    split
    · exact guarded.close (keeps issuedMs) _
    · rename_i young
      apply guarded.setConn (keeps issuedMs)
      intro _ _
      exact guarded.fresh_of_cutoff (by simpa using young)

theorem frameStep_guarded (guarded : Guarded sockets)
    (stored : sockets.conns.get? conn = some connection)
    (serving : connection.phase = .serving) (frame : SocketFrame) :
    Guarded (frameStep sockets conn connection frame) := by
  have live : connection.phase.live = true := by simp [serving, Phase.live]
  have keeps : KeepsClosed sockets conn connection :=
    keepsClosed_of_stored stored rfl
  unfold frameStep
  split
  · exact guarded.setPhase stored _ (by simp [Phase.live])
  · rename_i isOpen
    split
    · exact guarded.close keeps _
    · exact guarded
    · split
      · exact guarded.close keeps _
      · exact guarded.setPhase stored _ (fun _ => live)
    · have handling := guarded.setPhase stored .handling (fun _ => live)
      exact handling.handle (Table.get?_put_self _ _ _) (by simpa using isOpen)

theorem socketStep_guarded {action : SocketAction} (guarded : Guarded sockets)
    (taken : socketStep sockets action = some next) : Guarded next := by
  cases action with
  | signOut user cutoff =>
      cases taken
      exact ⟨guarded.finished, guarded.running, guarded.fresh, guarded.logged,
        guarded.silent⟩
  | revoke sweep user cutoff =>
      simp only [socketStep] at taken
      split at taken
      · cases taken
        exact revokeStep_guarded guarded
      · cases taken
  | sweep id =>
      obtain ⟨sweep, stored, rfl⟩ := Option.map_eq_some_iff.mp taken
      exact sweepStep_guarded guarded stored
  | connect conn token =>
      simp only [socketStep] at taken
      split at taken
      · rename_i fresh
        cases taken
        apply guarded.setConn
        · intro old stored
          simp [fresh] at stored
        · simp [Phase.live]
      · cases taken
  | read conn =>
      obtain ⟨connection, stored, taken⟩ := Option.bind_eq_some_iff.mp taken
      exact readStep_guarded guarded stored taken
  | register conn =>
      simp only [socketStep] at taken
      split at taken
      · rename_i stored
        split at taken
        · cases taken
          exact guarded.setPhase stored _ (by simp [Phase.live])
        · cases taken
      · cases taken
  | enter conn =>
      simp only [socketStep] at taken
      split at taken
      · rename_i stored
        split at taken
        · cases taken
          exact enterStep_guarded guarded stored
        · cases taken
      · cases taken
  | frame conn frame =>
      simp only [socketStep] at taken
      split at taken
      · rename_i stored
        split at taken
        · rename_i serving
          cases taken
          exact frameStep_guarded guarded stored serving frame
        · cases taken
      · cases taken
  | settle conn =>
      simp only [socketStep] at taken
      split at taken
      · rename_i stored
        split at taken
        · cases taken
          exact settleStep_guarded guarded stored _
        · cases taken
      · cases taken
  | handlerDone conn =>
      simp only [socketStep] at taken
      split at taken
      · rename_i stored
        split at taken
        · rename_i handling
          cases taken
          exact guarded.setPhase stored _ (by simp [handling, Phase.live])
        · cases taken
      · cases taken
  | expire conn =>
      simp only [socketStep] at taken
      split at taken
      · rename_i stored
        split at taken
        · cases taken
          exact guarded.close (keepsClosed_of_stored stored rfl) _
        · cases taken
      · cases taken
  | sendFails conn =>
      simp only [socketStep] at taken
      split at taken
      · split at taken
        · cases taken
          exact guarded.setConn (fun _ _ _ => rfl) (by simp)
        · cases taken
      · cases taken
  | leave conn =>
      simp only [socketStep] at taken
      split at taken
      · rename_i stored
        split at taken
        · cases taken
          exact guarded.setPhase stored _ (by simp [Phase.live])
        · cases taken
      · cases taken

/-- No task of the user is between its database check and its cutoff check. -/
def Quiescent (sockets : Sockets) (user : UserId) : Prop :=
  ∀ conn connection, sockets.conns.get? conn = some connection →
    connection.user = user → connection.phase.betweenChecks = false

/-- Once `revoke_sessions` has run, it leaves no older socket registered, and a
socket closed for a revocation handles no further command. -/
theorem revoked_session_keeps_no_socket {users : Table UserId Auth.UserRow}
    {actions : List SocketAction} {sockets : Sockets}
    (reached : run socketStep (Sockets.start users) actions = some sockets) :
    (∀ user cutoff, (user, cutoff) ∈ sockets.swept → Quiescent sockets user →
      ∀ conn connection, sockets.conns.get? conn = some connection →
        connection.user = user → connection.phase.inHub = true →
        connection.closed = false → cutoff ≤ connection.issuedMs) ∧
    ∀ later earlier conn,
      sockets.log = later ++ .closed conn .sessionRevoked :: earlier →
      .handled conn ∉ later := by
  have guarded : Guarded sockets :=
    run_invariant_of_step (fun guarded => socketStep_guarded guarded)
      (guarded_start users) reached
  constructor
  · intro user cutoff mem quiet conn connection stored same inHub isOpen
    have settled := quiet conn connection stored same
    have live : connection.phase.live = true := by
      cases phase : connection.phase <;>
        simp_all [Phase.inHub, Phase.betweenChecks, Phase.live]
    exact (guarded.fresh conn connection stored live isOpen).1 cutoff
      (same ▸ mem)
  · exact fun later earlier conn split =>
      guarded.silent later earlier conn .sessionRevoked split

/-- A connection passes the database check, the revocation is committed and its
sweep runs before the connection is entered: it is closed on entry. -/
theorem revoked_session_keeps_no_socket_late_entry :
    ∃ sockets : Sockets, (7, 20) ∈ sockets.swept ∧
      ∀ conn connection, sockets.conns.get? conn = some connection →
        connection.user = 7 → connection.phase.inHub = true →
        connection.closed = false → 20 ≤ connection.issuedMs := by
  obtain ⟨sockets, reached, swept, phases⟩ : ∃ sockets : Sockets,
      run socketStep
        (Sockets.start ((∅ : Table UserId Auth.UserRow).put 7
          ⟨true, 0, 0, none, none⟩))
        [.connect 1 ⟨7, 10, true, false⟩, .read 1, .register 1, .signOut 7 20,
          .revoke 1 7 20, .sweep 1, .enter 1] = some sockets ∧
        sockets.swept = [(7, 20)] ∧
        sockets.conns.rows.all fun entry => !entry.2.phase.betweenChecks := by
    refine ⟨_, rfl, ?_, ?_⟩ <;> decide +kernel
  have quiet : Quiescent sockets 7 := by
    intro conn connection stored _
    simpa using List.all_eq_true.mp phases _ (Table.mem_rows.mpr stored)
  exact ⟨sockets, by simp [swept],
    (revoked_session_keeps_no_socket reached).1 7 20 (by simp [swept]) quiet⟩

end Brook.Ws
