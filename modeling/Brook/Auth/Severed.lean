import Brook.Auth.SignOut

namespace Brook.Auth

open Transition

variable {settings : Settings} {db next : Db} {tx : TxId} {transaction : Tx}

/-! ### One statement of the lock's holder -/

theorem SignOut.Kept.not_revoked {signOut : SignOut} {user : UserRow}
    (kept : signOut.Kept user) {issuedAt : Time}
    (fresh : user.sessionRevoked issuedAt = false) :
    signOut.cutoff ≤ issuedAt := by
  obtain ⟨cutoff, stored, later⟩ := kept.cutoff
  simp only [UserRow.sessionRevoked, stored, decide_eq_false_iff_not,
    Int.not_lt] at fresh
  exact Int.le_trans later fresh

theorem Holding.setStage (holding : Holding db transaction) {stage : Stage}
    (holds : stage.Holds db { transaction with stage }) :
    Holding db { transaction with stage } :=
  ⟨holding.rank, holding.view, holding.rotated, holding.user, holding.own, holds⟩

theorem readStep_sound (sound : Sound db)
    (stored : db.transactions.get? tx = some transaction)
    (taken : readStep db tx transaction = some next) : Sound next := by
  have waits : transaction.stage.holds = false → transaction.Clean :=
    sound.waiting tx transaction stored
  unfold readStep at taken
  split at taken
  iterate 2
    rename_i begun _
    split at taken
    · cases taken
      exact sound.endTx tx
    · cases taken
      exact sound.setTx_waiting tx rfl (waits (by rw [begun]; rfl))
  · rename_i begun _
    split at taken
    · cases taken
      exact sound.setTx_waiting tx rfl (waits (by rw [begun]; rfl))
    · cases taken
      exact sound.endTx tx
  · cases taken

theorem Sound.lock (sound : Sound db) (free : db.holder = none)
    (clean : transaction.Clean) (found : Option RefreshToken)
    (taken : next = { db with
      transactions := db.transactions.put tx
        { transaction with stage := .locked db.user found, rank := db.nextRank }
      holder := some tx
      nextRank := db.nextRank + 1 }) : Sound next := by
  obtain ⟨noUser, noRows, noSignOut⟩ := clean
  have same : SameRows db next := by
    subst taken
    exact ⟨rfl, rfl, rfl, rfl, rfl, Int.le_refl _, Nat.le_succ _⟩
  apply sound.of_sameRows tx same
  · intro other _ held
    simp [free] at held
  · intro other stored different found
    subst taken
    rwa [Table.get?_put_ne _ _ different] at found
  · intro stored found
    subst taken
    simp only [Table.get?_put_self, Option.some.injEq] at found
    subst found
    refine ⟨fun _ => ⟨rfl, ?_⟩, by simp [Stage.holds]⟩
    constructor
    · exact ⟨Nat.lt_succ_self _, sound.settled.ranks⟩
    · simpa [Tx.view, noRows, Table.putAll] using OnlyRevokes.refl _
    · simpa [Tx.view, noRows, Table.putAll] using sound.settled.rotated
    · simpa [noUser] using sound.settled.user
    · simp [noSignOut]
    · exact ⟨rfl, noUser, noRows, noSignOut⟩

theorem lockStep_sound (sound : Sound db)
    (stored : db.transactions.get? tx = some transaction)
    (taken : lockStep db tx transaction = some next) : Sound next := by
  have waits : transaction.stage.holds = false → transaction.Clean :=
    sound.waiting tx transaction stored
  unfold lockStep at taken
  dsimp only at taken
  split at taken
  · rename_i free
    split at taken
    all_goals
      first
      | cases taken
        rename_i stage _
        exact sound.lock free (waits (by rw [stage]; rfl)) _ rfl
      | cases taken
        rename_i stage
        exact sound.lock free (waits (by rw [stage]; rfl)) _ rfl
      | cases taken
  · cases taken

theorem Sound.of_unmoved (sound : Sound db) (same : SameRows db next)
    (transactions : next.transactions = db.transactions)
    (holder : next.holder = db.holder) : Sound next where
  settled := sound.settled.transfer same
  exclusive := by
    rw [transactions, holder]
    exact sound.exclusive
  holding := by
    rw [transactions]
    intro tx transaction stored holds
    exact (sound.holding tx transaction stored holds).transfer same
  waiting := by
    rw [transactions]
    exact sound.waiting

/-- A pair issued on the password that the locked row verifies. -/
theorem Settled.password_outlives (settled : Settled db) :
    Pair.Outlives ⟨.password db.user.changes, none, none⟩ db :=
  fun signOut mem => (settled.user signOut mem).changes

theorem decideStep_sound (sound : Sound db) (holder : db.holder = some tx)
    (holding : Holding db transaction) {codeOk : Bool} {jti : Jti}
    (taken : decideStep db tx transaction codeOk jti = some next) :
    Sound next := by
  unfold decideStep at taken
  split at taken
  case h_2 => cases taken
  rename_i user found locked
  obtain ⟨rfl, noUser, noRows, noSignOut⟩ :
      user = db.user ∧ transaction.user = none ∧ transaction.written = [] ∧
        transaction.signOut = none := by
    simpa [locked, Stage.Holds] using holding.stage
  split at taken
  · -- login
    split at taken
    · cases taken
      exact sound.endTx tx
    · split at taken
      · cases taken
        exact sound.setTx_holding holder (holding.setStage noSignOut)
      · cases taken
        apply sound.setTx_holding holder (holding.setStage _)
        exact ⟨sound.settled.password_outlives, by simp [noSignOut]⟩
  · -- TOTP login
    rename_i pending _
    split at taken
    · cases taken
      exact sound.endTx tx
    · rename_i refused
      split at taken
      · cases taken
        exact sound.endTx tx
      · split at taken
        · cases taken
          exact sound.endTx tx
        · split at taken
          · cases taken
            exact sound.endTx tx
          · rename_i usedJti _
            cases taken
            have same : SameRows db { db with usedJti } :=
              ⟨rfl, rfl, rfl, rfl, rfl, Int.le_refl _, Nat.le_refl _⟩
            have fresh : db.user.sessionRevoked pending.issuedAt = false := by
              simp only [not_or, Bool.not_eq_true] at refused
              exact refused.2.1
            apply (sound.of_unmoved same rfl rfl).setTx_holding holder
            apply (holding.transfer same).setStage
            refine ⟨?_, by simp [noSignOut]⟩
            intro signOut mem
            exact (sound.settled.user signOut mem).not_revoked fresh
  · -- refresh
    rename_i presented refresh
    split at taken
    · cases taken
      exact sound.endTx tx
    · split at taken
      · cases taken
        exact sound.endTx tx
      · rename_i token stored
        split at taken
        · cases taken
          exact sound.endTx tx
        · cases taken
          apply sound.setTx_holding holder (holding.setStage _)
          refine ⟨noSignOut, ?_⟩
          intro other same
          rw [refresh, Route.refresh.injEq] at same
          subst same
          refine ⟨stored, ?_⟩
          simpa [Tx.view, noRows, Table.putAll] using stored
  · -- logout
    split at taken
    · cases taken
    · cases taken
      apply sound.setTx_holding holder (holding.setStage _)
      exact ⟨by simp, by simp [noSignOut]⟩
  · -- change of password
    split at taken
    · cases taken
      exact sound.endTx tx
    · cases taken
      apply sound.setTx_holding holder
      refine ⟨holding.rank, holding.view, holding.rotated, ?_, ?_, ?_⟩
      · intro signOut mem
        have kept := sound.settled.user signOut mem
        exact ⟨Nat.le_succ_of_le kept.changes, kept.cutoff⟩
      · simp [noSignOut]
      · have outlives := sound.settled.password_outlives
        split
        · exact ⟨noSignOut, outlives⟩
        · exact ⟨outlives, by simp [noSignOut]⟩

/-- The compare-and-set of one live row. -/
theorem Holding.casRow (holding : Holding db transaction)
    (noSignOut : transaction.signOut = none) {retired : TokenId}
    {successor : Option TokenId} {now : Time} {row : RefreshToken}
    (swapped : Auth.casRow (transaction.view db.tokens) retired successor now =
      some row) {pair : Pair} (outlives : pair.Outlives db) :
    Holding db
      { transaction with
        written := transaction.written ++ [(retired, row)]
        stage := .issuing pair } := by
  obtain ⟨old, stored, live, rfl⟩ := casRow_eq_some.mp swapped
  have view : Tx.view
      { transaction with
        written := transaction.written ++ [(retired, old.retire successor now)]
        stage := .issuing pair } db.tokens =
      (transaction.view db.tokens).putAll
        [(retired, old.retire successor now)] :=
    putAll_append _ _ _
  refine ⟨holding.rank, ?_, ?_, holding.user, holding.own, outlives,
    by simp [noSignOut]⟩
  · rw [view]
    apply holding.view.trans
    apply onlyRevokes_putAll
    intro token written mem
    obtain ⟨rfl, rfl⟩ : token = retired ∧ written = old.retire successor now := by
      simpa using mem
    exact ⟨rfl, old, stored, live⟩
  · rw [view]
    apply rotatedRevoked_putAll holding.rotated
    intro token written mem
    obtain ⟨rfl, rfl⟩ : token = retired ∧ written = old.retire successor now := by
      simpa using mem
    rfl

/-- A presented token that may still buy a pair is none that a sign-out
revoked: those are revoked, and were never rotated. -/
theorem Settled.refreshToken_outlives (settled : Settled db)
    {presented : TokenId} {token : RefreshToken}
    (stored : db.tokens.get? presented = some token)
    (alive : token.revoked = false ∨ token.rotatedAt ≠ none)
    (successor : Option TokenId) (family : Option FamilyId) :
    Pair.Outlives ⟨.refreshToken presented, successor, family⟩ db := by
  intro signOut mem revoked
  obtain ⟨row, found, rowRevoked, unrotated⟩ :=
    settled.revoked signOut mem presented revoked
  rw [stored, Option.some.injEq] at found
  subst found
  rcases alive with live | rotated
  · simp [rowRevoked] at live
  · exact rotated unrotated

theorem rotateStep_sound (sound : Sound db) (holder : db.holder = some tx)
    (holding : Holding db transaction) {successor : TokenId}
    (taken : rotateStep settings db tx transaction successor = some next) :
    Sound next := by
  unfold rotateStep at taken
  dsimp only at taken
  split at taken
  case h_2 => cases taken
  rename_i token checked presented rotating refresh
  obtain ⟨noSignOut, stored⟩ :
      transaction.signOut = none ∧ db.tokens.get? presented = some token := by
    have stage := holding.stage
    simp only [rotating, Stage.Holds] at stage
    exact ⟨stage.1, (stage.2 presented refresh).2⟩
  have reuse : Sound (db.setTx tx
      { transaction with stage := .updating (.family token.familyId) none }) := by
    apply sound.setTx_holding holder (holding.setStage _)
    exact ⟨by simp, by simp [noSignOut]⟩
  split at taken
  · rename_i live
    split at taken
    · rename_i row swapped
      cases taken
      apply sound.setTx_holding holder
      exact holding.casRow noSignOut swapped
        (sound.settled.refreshToken_outlives stored (Or.inl live) _ _)
    · cases taken
      exact sound.endTx tx
  · split at taken
    · cases taken
      exact sound.endTx tx
    · rename_i rotatedAt rotated
      split at taken
      · cases taken
        exact reuse
      · split at taken
        · rename_i row swapped
          cases taken
          apply sound.setTx_holding holder
          exact holding.casRow noSignOut swapped
            (sound.settled.refreshToken_outlives stored
              (Or.inr (by simp [rotated])) _ _)
        · cases taken
          exact reuse

theorem cutOffStep_sound (sound : Sound db) (holder : db.holder = some tx)
    (holding : Holding db transaction)
    (taken : cutOffStep db tx transaction = some next) : Sound next := by
  unfold cutOffStep at taken
  split at taken
  case h_2 => cases taken
  rename_i pair user signingOut written
  obtain ⟨noSignOut, outlives⟩ :
      transaction.signOut = none ∧ pair.Outlives db := by
    simpa [signingOut, Stage.Holds] using holding.stage
  cases taken
  apply sound.setTx_holding holder
  refine ⟨holding.rank, holding.view, holding.rotated, ?_, ?_, ?_⟩
  · intro signOut mem
    have kept := holding.user signOut mem
    rw [written] at kept
    exact ⟨kept.changes, db.now, rfl, sound.settled.past signOut mem⟩
  · intro own same
    cases same
    exact ⟨rfl, Int.le_refl _, Nat.le_refl _, db.now, rfl, Int.le_refl _⟩
  · refine ⟨?_, by simp⟩
    intro own same
    cases same
    exact outlives

theorem snapshotStep_sound (sound : Sound db) (holder : db.holder = some tx)
    (holding : Holding db transaction)
    (taken : snapshotStep db tx transaction = some next) : Sound next := by
  unfold snapshotStep at taken
  split at taken
  case h_2 => cases taken
  rename_i scope pair updating
  have stage := holding.stage
  simp only [updating, Stage.Holds] at stage
  cases taken
  apply sound.setTx_holding holder (holding.setStage _)
  refine ⟨stage.1, ?_⟩
  intro signsOut
  obtain ⟨rfl, issues⟩ := stage.2 signsOut
  refine ⟨rfl, issues, ?_⟩
  intro token row stored live
  refine List.mem_map.mpr ⟨(token, row), ?_, rfl⟩
  rw [Table.mem_rows, Table.get?_filter, Option.filter_eq_some_iff]
  exact ⟨stored, by simp [Scope.matches, Scope.covers, live]⟩

theorem updateStep_sound (sound : Sound db) (holder : db.holder = some tx)
    (holding : Holding db transaction)
    (taken : updateStep db tx transaction = some next) : Sound next := by
  unfold updateStep at taken
  split at taken
  case h_2 => cases taken
  rename_i scope matched pair applying
  have stage := holding.stage
  simp only [applying, Stage.Holds] at stage
  cases taken
  apply sound.setTx_holding holder
  have view : ∀ stage signOut,
      Tx.view
        { transaction with
          written := transaction.written ++
            updatedRows (transaction.view db.tokens) scope matched
          signOut, stage } db.tokens =
        (transaction.view db.tokens).putAll
          (updatedRows (transaction.view db.tokens) scope matched) :=
    fun _ _ => putAll_append _ _ _
  refine ⟨holding.rank, ?_, ?_, holding.user, ?_, ?_⟩
  · rw [view]
    apply holding.view.trans
    apply onlyRevokes_putAll
    intro token row mem
    obtain ⟨_, old, found, _, live, rfl⟩ := mem_updatedRows.mp mem
    exact ⟨rfl, old, found, live⟩
  · rw [view]
    apply rotatedRevoked_putAll holding.rotated
    intro token row mem
    obtain ⟨_, old, _, _, _, rfl⟩ := mem_updatedRows.mp mem
    rfl
  · intro signOut same
    obtain ⟨own, mine, rfl⟩ := Option.map_eq_some_iff.mp same
    obtain ⟨rank, past, kept⟩ := holding.own own mine
    exact ⟨rank, past, kept.changes, kept.cutoff⟩
  · cases pair with
    | none =>
        cases mine : transaction.signOut with
        | none => simp [Stage.Holds]
        | some own => exact absurd rfl (stage.2 (by simp [mine])).2.1
    | some pair =>
        refine ⟨stage.1 pair rfl, ?_⟩
        intro signOut same
        obtain ⟨own, mine, rfl⟩ := Option.map_eq_some_iff.mp same
        obtain ⟨rfl, -, complete⟩ := stage.2 (by simp [mine])
        rw [view]
        refine ⟨fun token row => revoked_of_update complete, ?_⟩
        intro token mem
        obtain ⟨old, found, live, written⟩ := mem_keys_updatedRows mem
        refine ⟨_, written, ?_⟩
        by_contra rotated
        simp [holding.rotated token old found rotated] at live

/-! ### The commit -/

theorem Settled.save (settled : Settled db) (holding : Holding db transaction)
    (minted : List PendingToken) :
    Settled { db with
      user := transaction.user.getD db.user
      tokens := transaction.view db.tokens
      minted } where
  ranks := settled.ranks
  past := settled.past
  user := holding.user
  rotated := holding.rotated
  revoked := by
    intro signOut mem token wasRevoked
    obtain ⟨row, stored, revoked, unrotated⟩ :=
      settled.revoked signOut mem token wasRevoked
    exact ⟨row, holding.view.frozen stored revoked, revoked, unrotated⟩
  live := by
    intro signOut mem token row stored live
    exact settled.live signOut mem token row (holding.view.live stored live) live
  issued := settled.issued

/-- The commit of a transaction that issues a pair, and that may have signed
out every other session before. -/
theorem Settled.issue (settled : Settled db) (holding : Holding db transaction)
    {pair : Pair} (issuing : transaction.stage = .issuing pair)
    {token : TokenId} {family : FamilyId}
    (drawn : (transaction.view db.tokens).contains token = false) :
    Settled { db with
      user := transaction.user.getD db.user
      tokens := (transaction.view db.tokens).put token
        (RefreshToken.issue settings family db.now)
      inserted := db.inserted.put token transaction.rank
      issues := ⟨transaction.rank, pair.evidence⟩ :: db.issues
      signOuts := transaction.signOut.toList ++ db.signOuts } := by
  obtain ⟨outlives, cleared⟩ :
      pair.Outlives db ∧ ∀ own, transaction.signOut = some own →
        (∀ token row, (transaction.view db.tokens).get? token = some row →
          row.revoked = true) ∧
        ∀ token ∈ own.revoked, ∃ row,
          (transaction.view db.tokens).get? token = some row ∧
            row.rotatedAt = none := by
    have stage := holding.stage
    rwa [issuing] at stage
  have fresh : (transaction.view db.tokens).get? token = none := by
    simpa [Table.contains] using drawn
  have kept : ∀ {other row},
      (transaction.view db.tokens).get? other = some row →
      ((transaction.view db.tokens).put token
        (RefreshToken.issue settings family db.now)).get? other = some row := by
    intro other row stored
    rw [Table.get?_put_ne _ _ (by rintro rfl; simp [fresh] at stored)]
    exact stored
  have memOwn : ∀ {signOut}, signOut ∈ transaction.signOut.toList →
      transaction.signOut = some signOut := by
    intro signOut mem
    simpa using mem
  constructor
  · refine ⟨?_, ?_⟩
    · intro signOut mem
      rcases List.mem_append.mp mem with own | old
      · rw [(holding.own signOut (memOwn own)).1]
        exact holding.rank.1
      · exact settled.ranks.1 signOut old
    · intro issue mem
      rcases List.mem_cons.mp mem with rfl | old
      · exact holding.rank.1
      · exact settled.ranks.2 issue old
  · intro signOut mem
    rcases List.mem_append.mp mem with own | old
    · exact (holding.own signOut (memOwn own)).2.1
    · exact settled.past signOut old
  · intro signOut mem
    rcases List.mem_append.mp mem with own | old
    · exact (holding.own signOut (memOwn own)).2.2
    · exact holding.user signOut old
  · intro other row stored rotated
    simp only [Table.get?_put] at stored
    split at stored
    · cases stored
      simp at rotated
    · exact holding.rotated other row stored rotated
  · intro signOut mem other wasRevoked
    rcases List.mem_append.mp mem with own | old
    · obtain ⟨allRevoked, unrotated⟩ := cleared signOut (memOwn own)
      obtain ⟨row, stored, never⟩ := unrotated other wasRevoked
      exact ⟨row, kept stored, allRevoked other row stored, never⟩
    · obtain ⟨row, stored, revoked, never⟩ :=
        settled.revoked signOut old other wasRevoked
      exact ⟨row, kept (holding.view.frozen stored revoked), revoked, never⟩
  · intro signOut mem other row stored live
    simp only [Table.get?_put] at stored ⊢
    split at stored
    · rename_i same
      refine ⟨transaction.rank, by simp [same], ?_⟩
      rcases List.mem_append.mp mem with own | old
      · exact Nat.le_of_eq (holding.own signOut (memOwn own)).1
      · exact Nat.le_of_lt (holding.rank.2.1 signOut old)
    · rename_i different
      rcases List.mem_append.mp mem with own | old
      · have revoked := (cleared signOut (memOwn own)).1 other row stored
        simp [revoked] at live
      · obtain ⟨rank, found, later⟩ :=
          settled.live signOut old other row (holding.view.live stored live) live
        exact ⟨rank, by simp [different, found], later⟩
  · intro signOut mem issue memIssue later
    rcases List.mem_append.mp mem with own | old
    · have mine := (holding.own signOut (memOwn own)).1
      rcases List.mem_cons.mp memIssue with rfl | before
      · exact absurd mine (Nat.ne_of_lt later)
      · have earlier := holding.rank.2.2 issue before
        exact absurd (mine ▸ later) (Nat.lt_asymm earlier)
    · rcases List.mem_cons.mp memIssue with rfl | before
      · exact outlives signOut old
      · exact settled.issued signOut old issue before later

/-- Once the holder has ended, no transaction is past the lock. -/
theorem Sound.commit (sound : Sound db) (holder : db.holder = some tx)
    (settled : Settled next)
    (transactions : next.transactions = (db.endTx tx).transactions) :
    Sound next := by
  have before : ∀ other transaction,
      next.transactions.get? other = some transaction →
      other ≠ tx ∧ db.transactions.get? other = some transaction := by
    intro other transaction stored
    simpa [transactions, Db.endTx, and_comm] using stored
  have waits : ∀ other transaction,
      next.transactions.get? other = some transaction →
      transaction.stage.holds = true → False := by
    intro other transaction stored holds
    obtain ⟨different, found⟩ := before other transaction stored
    have alsoHolder := sound.exclusive other transaction found holds
    rw [holder, Option.some.injEq] at alsoHolder
    exact different alsoHolder.symm
  constructor
  · exact settled
  · exact fun other transaction stored holds =>
      (waits other transaction stored holds).elim
  · exact fun other transaction stored holds =>
      (waits other transaction stored holds).elim
  · intro other transaction stored
    exact sound.waiting other transaction (before other transaction stored).2

theorem settled_endTx (settled : Settled db) : Settled (db.endTx tx) :=
  settled.transfer ⟨rfl, rfl, rfl, rfl, rfl, Int.le_refl _, Nat.le_refl _⟩

theorem commitStep_sound (sound : Sound db) (holder : db.holder = some tx)
    (holding : Holding db transaction) {token : TokenId} {family : FamilyId}
    (taken : commitStep settings db tx transaction token family = some next) :
    Sound next := by
  unfold commitStep at taken
  dsimp only at taken
  split at taken
  · cases taken
    exact sound.commit holder (settled_endTx (sound.settled.save holding _)) rfl
  · rename_i pair issuing
    split at taken
    · cases taken
    · rename_i drawn
      cases taken
      exact sound.commit holder (settled_endTx
        (sound.settled.issue holding issuing (by simpa using drawn))) rfl
  · cases taken

/-! ### Every run -/

/-- The statements that a transaction can only run under the lock. -/
theorem holds_of_advance {statement : Statement}
    (taken : advance settings db tx transaction statement = some next) :
    transaction.stage.holds = true ∨ statement = .read ∨ statement = .lock ∨
      statement = .rollback := by
  cases stage : transaction.stage with
  | begun | found | authenticated =>
      cases statement <;>
        simp_all [advance, decideStep, rotateStep, cutOffStep, snapshotStep,
          updateStep, commitStep]
  | _ => simp [Stage.holds]

theorem advance_sound (sound : Sound db)
    (stored : db.transactions.get? tx = some transaction)
    {statement : Statement}
    (taken : advance settings db tx transaction statement = some next) :
    Sound next := by
  rcases holds_of_advance taken with holds | rfl | rfl | rfl
  · have holder := sound.exclusive tx transaction stored holds
    have holding := sound.holding tx transaction stored holds
    cases statement with
    | read => exact readStep_sound sound stored taken
    | lock => exact lockStep_sound sound stored taken
    | decide => exact decideStep_sound sound holder holding taken
    | rotate => exact rotateStep_sound sound holder holding taken
    | cutOff => exact cutOffStep_sound sound holder holding taken
    | snapshot => exact snapshotStep_sound sound holder holding taken
    | update => exact updateStep_sound sound holder holding taken
    | commit => exact commitStep_sound sound holder holding taken
    | rollback =>
        cases taken
        exact sound.endTx tx
  · exact readStep_sound sound stored taken
  · exact lockStep_sound sound stored taken
  · cases taken
    exact sound.endTx tx

theorem txStep_sound {action : TxAction} (sound : Sound db)
    (taken : txStep settings db action = some next) : Sound next := by
  cases action with
  | tick elapsed =>
      cases taken
      have same : SameRows db { db with now := db.now + elapsed } :=
        ⟨rfl, rfl, rfl, rfl, rfl,
          Int.le_add_of_nonneg_right (Int.natCast_nonneg _), Nat.le_refl _⟩
      exact sound.of_unmoved same rfl rfl
  | configureTotp activatedAt =>
      cases taken
      have same : SameRows db { db with totpActivatedAt := activatedAt } :=
        ⟨rfl, rfl, rfl, rfl, rfl, Int.le_refl _, Nat.le_refl _⟩
      exact sound.of_unmoved same rfl rfl
  | begin tx route =>
      simp only [txStep] at taken
      split at taken
      · cases taken
        exact sound.setTx_waiting tx rfl ⟨rfl, rfl, rfl⟩
      · cases taken
  | advance tx statement =>
      simp only [txStep] at taken
      split at taken
      · cases taken
      · rename_i transaction stored
        exact advance_sound sound stored taken

/-- Once a sign-out-everywhere is committed, every live refresh token is its own
or younger, and no younger transaction has issued a pair on an older password,
on a token that it revoked, or on a pending token from before its cutoff. -/
theorem nothing_survives_sign_out {user : UserRow}
    {totpActivatedAt : Option Time} {now : Time} {actions : List TxAction}
    (reached : run (txStep settings) (Db.start user totpActivatedAt now)
      actions = some db)
    {signOut : SignOut} (committed : signOut ∈ db.signOuts) :
    (∀ token row, db.tokens.get? token = some row → row.revoked = false →
      ∃ rank, db.inserted.get? token = some rank ∧ signOut.rank ≤ rank) ∧
    ∀ issue ∈ db.issues, signOut.rank < issue.rank →
      issue.evidence.Outlives signOut := by
  have sound : Sound db :=
    run_invariant_of_step txStep_sound (Db.sound_start _ _ _) reached
  exact ⟨sound.settled.live signOut committed,
    sound.settled.issued signOut committed⟩

/-- A login that has to prove its second factor, a password change that signs
out every session, and the second factor of the login. -/
def spareActions : List TxAction :=
  let pending := PendingToken.create 9 5 0
  let whole (tx : TxId) (route : Route) (statements : List Statement) :=
    .begin tx route :: statements.map (TxAction.advance tx)
  whole 1 (.login 1) [.lock, .decide false 9, .commit 0 0] ++
    whole 2 (.changePassword 1 2 true 5)
      [.read, .lock, .decide false 0, .cutOff, .snapshot, .update,
        .commit 20 30] ++
    whole 3 (.totpLogin pending) [.lock, .decide true 0, .commit 21 31]

def spareStart : Db := Db.start ⟨true, 1, 0, none, none⟩ (some 0) 5

theorem nothing_survives_sign_out_run :
    ∃ (db : Db) (signOut : SignOut), signOut ∈ db.signOuts ∧
      ∀ token row, db.tokens.get? token = some row → row.revoked = false →
        ∃ rank, db.inserted.get? token = some rank ∧ signOut.rank ≤ rank := by
  obtain ⟨db, reached, committed⟩ : ∃ db,
      run (txStep ⟨1000, 100⟩) spareStart spareActions = some db ∧
        db.signOuts = [⟨1, 5, 1, []⟩] := by
    refine ⟨_, rfl, ?_⟩
    decide +kernel
  refine ⟨db, ⟨1, 5, 1, []⟩, by simp [committed], ?_⟩
  exact (nothing_survives_sign_out reached (by simp [committed])).1

/-- In the millisecond of the cutoff, a pending token minted before the password
change still buys a pair. -/
theorem pending_token_spared :
    ¬ ∀ (settings : Settings) (user : UserRow) (totpActivatedAt : Option Time)
      (now : Time) (actions : List TxAction) (db : Db),
      run (txStep settings) (Db.start user totpActivatedAt now) actions =
        some db →
      ∀ signOut ∈ db.signOuts, ∀ issue ∈ db.issues,
        signOut.rank < issue.rank → ∀ token,
        issue.evidence = .pending token → signOut.rank ≤ token.mintedBy := by
  intro claimed
  obtain ⟨db, reached, committed, issued⟩ : ∃ db,
      run (txStep ⟨1000, 100⟩) spareStart spareActions = some db ∧
        db.signOuts = [⟨1, 5, 1, []⟩] ∧
        db.issues = [⟨2, .pending (PendingToken.create 9 5 0)⟩,
          ⟨1, .password 0⟩] := by
    refine ⟨_, rfl, ?_, ?_⟩ <;> decide +kernel
  have later := claimed _ _ _ _ _ db reached ⟨1, 5, 1, []⟩
    (by simp [committed]) ⟨2, .pending (PendingToken.create 9 5 0)⟩
    (by simp [issued]) (by decide) _ rfl
  exact absurd later (by decide)

end Brook.Auth
