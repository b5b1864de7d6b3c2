import Brook.Auth.Transactions
import Brook.Auth.Reuse

namespace Brook.Auth

open Transition

variable {settings : Settings} {db next : Db}

/-- What the evidence has to be worth after a sign-out: a newer password, a
pending token from its cutoff on, or a refresh token that it did not revoke. -/
def Evidence.Outlives (evidence : Evidence) (signOut : SignOut) : Prop :=
  match evidence with
  | .password changes => signOut.changes ≤ changes
  | .pending token => signOut.cutoff ≤ token.issuedAt
  | .refreshToken token => token ∉ signOut.revoked

/-- The user's row remembers the sign-out. -/
structure SignOut.Kept (signOut : SignOut) (user : UserRow) : Prop where
  changes : signOut.changes ≤ user.changes
  cutoff : ∃ cutoff, user.sessionsValidAfter = some cutoff ∧
    signOut.cutoff ≤ cutoff

/-! ### Writes that only revoke -/

/-- `new` differs from `old` by revocations. -/
structure OnlyRevokes (old new : Tokens) : Prop where
  frozen : ∀ {token row}, old.get? token = some row → row.revoked = true →
    new.get? token = some row
  live : ∀ {token row}, new.get? token = some row → row.revoked = false →
    old.get? token = some row

def RotatedRevoked (tokens : Tokens) : Prop :=
  ∀ token row, tokens.get? token = some row → row.rotatedAt ≠ none →
    row.revoked = true

theorem OnlyRevokes.refl (tokens : Tokens) : OnlyRevokes tokens tokens :=
  ⟨fun stored _ => stored, fun stored _ => stored⟩

theorem OnlyRevokes.trans {old middle new : Tokens}
    (first : OnlyRevokes old middle) (second : OnlyRevokes middle new) :
    OnlyRevokes old new where
  frozen := fun stored revoked =>
    second.frozen (first.frozen stored revoked) revoked
  live := fun stored unrevoked =>
    first.live (second.live stored unrevoked) unrevoked

theorem putAll_append (tokens : Tokens)
    (front back : List (TokenId × RefreshToken)) :
    tokens.putAll (front ++ back) = (tokens.putAll front).putAll back := by
  simp [Table.putAll]

section

variable {tokens : Tokens} {rows : List (TokenId × RefreshToken)}

theorem onlyRevokes_putAll
    (revoke : ∀ token row, (token, row) ∈ rows → row.revoked = true ∧
      ∃ old, tokens.get? token = some old ∧ old.revoked = false) :
    OnlyRevokes tokens (tokens.putAll rows) where
  frozen := by
    intro token row stored revoked
    rcases tokens.putAll_cases rows token with ⟨_, same⟩ | ⟨written, mem, _⟩
    · rw [same, stored]
    · obtain ⟨_, old, found, unrevoked⟩ := revoke token written mem
      rw [stored, Option.some.injEq] at found
      simp [← found, revoked] at unrevoked
  live := by
    intro token row stored unrevoked
    rcases tokens.putAll_cases rows token with ⟨_, same⟩ | ⟨written, mem, put⟩
    · rw [← same, stored]
    · rw [put, Option.some.injEq] at stored
      simp [← stored, (revoke token written mem).1] at unrevoked

theorem rotatedRevoked_putAll (rotated : RotatedRevoked tokens)
    (revoke : ∀ token row, (token, row) ∈ rows → row.revoked = true) :
    RotatedRevoked (tokens.putAll rows) := by
  intro token row stored wasRotated
  rcases tokens.putAll_cases rows token with ⟨_, same⟩ | ⟨written, mem, put⟩
  · exact rotated token row (same ▸ stored) wasRotated
  · rw [put, Option.some.injEq] at stored
    exact stored ▸ revoke token written mem

theorem mem_updatedRows {scope : Scope} {matched : List TokenId}
    {token : TokenId} {row : RefreshToken} :
    (token, row) ∈ updatedRows tokens scope matched ↔
      token ∈ matched ∧ ∃ old, tokens.get? token = some old ∧
        scope.covers old = true ∧ old.revoked = false ∧ row = old.revoke := by
  simp only [updatedRows, List.mem_filterMap, Option.map_eq_some_iff,
    Option.filter_eq_some_iff, Scope.matches, Bool.and_eq_true,
    Bool.not_eq_true', Prod.mk.injEq]
  constructor
  · rintro ⟨_, mem, old, ⟨found, covers, unrevoked⟩, rfl, rfl⟩
    exact ⟨mem, old, found, covers, unrevoked, rfl⟩
  · rintro ⟨mem, old, found, covers, unrevoked, rfl⟩
    exact ⟨token, mem, old, ⟨found, covers, unrevoked⟩, rfl, rfl⟩

theorem mem_keys_updatedRows {scope : Scope} {matched : List TokenId}
    {token : TokenId}
    (mem : token ∈ (updatedRows tokens scope matched).map Prod.fst) :
    ∃ old, tokens.get? token = some old ∧ old.revoked = false ∧
      (tokens.putAll (updatedRows tokens scope matched)).get? token =
        some old.revoke := by
  obtain ⟨⟨id, row⟩, memRow, rfl⟩ := List.mem_map.mp mem
  obtain ⟨_, old, found, _, unrevoked, rfl⟩ := mem_updatedRows.mp memRow
  refine ⟨old, found, unrevoked, ?_⟩
  rcases tokens.putAll_cases (updatedRows tokens scope matched) id with
    ⟨absent, _⟩ | ⟨row, memWritten, put⟩
  · exact absurd memRow (absent _)
  · obtain ⟨_, again, foundAgain, _, _, rfl⟩ := mem_updatedRows.mp memWritten
    rw [found, Option.some.injEq] at foundAgain
    rw [put, foundAgain]

/-- An `UPDATE` whose snapshot has every live row leaves none. -/
theorem revoked_of_update {matched : List TokenId}
    (complete : ∀ token row, tokens.get? token = some row →
      row.revoked = false → token ∈ matched)
    {token : TokenId} {row : RefreshToken}
    (stored : (tokens.putAll (updatedRows tokens .user matched)).get? token =
      some row) : row.revoked = true := by
  rcases tokens.putAll_cases (updatedRows tokens .user matched) token with
    ⟨absent, same⟩ | ⟨written, mem, put⟩
  · rw [same] at stored
    by_contra unrevoked
    have live : row.revoked = false := by simpa using unrevoked
    exact absent row.revoke (mem_updatedRows.mpr
      ⟨complete token row stored live, row, stored, rfl, live, rfl⟩)
  · obtain ⟨_, old, _, _, _, rfl⟩ := mem_updatedRows.mp mem
    rw [put, Option.some.injEq] at stored
    simp [← stored]

end

/-! ### The invariant -/

/-- What the committed rows keep of every committed sign-out. -/
structure Settled (db : Db) : Prop where
  ranks : (∀ signOut ∈ db.signOuts, signOut.rank < db.nextRank) ∧
    ∀ issue ∈ db.issues, issue.rank < db.nextRank
  past : ∀ signOut ∈ db.signOuts, signOut.cutoff ≤ db.now
  user : ∀ signOut ∈ db.signOuts, signOut.Kept db.user
  rotated : RotatedRevoked db.tokens
  revoked : ∀ signOut ∈ db.signOuts, ∀ token ∈ signOut.revoked,
    ∃ row, db.tokens.get? token = some row ∧ row.revoked = true ∧
      row.rotatedAt = none
  live : ∀ signOut ∈ db.signOuts, ∀ token row,
    db.tokens.get? token = some row → row.revoked = false →
    ∃ rank, db.inserted.get? token = some rank ∧ signOut.rank ≤ rank
  issued : ∀ signOut ∈ db.signOuts, ∀ issue ∈ db.issues,
    signOut.rank < issue.rank → issue.evidence.Outlives signOut

def Stage.holds : Stage → Bool
  | .begun | .found _ | .authenticated => false
  | _ => true

def Pair.Outlives (pair : Pair) (db : Db) : Prop :=
  ∀ signOut ∈ db.signOuts, pair.evidence.Outlives signOut

/-- What the local variables of the lock's holder are worth. -/
def Stage.Holds (db : Db) (transaction : Tx) : Stage → Prop
  | .begun | .found _ | .authenticated => False
  | .locked user _ =>
      user = db.user ∧ transaction.user = none ∧ transaction.written = [] ∧
        transaction.signOut = none
  | .rotating token _ =>
      transaction.signOut = none ∧ ∀ presented,
        transaction.route = .refresh presented →
        (transaction.view db.tokens).get? presented = some token ∧
          db.tokens.get? presented = some token
  | .signingOut pair => transaction.signOut = none ∧ pair.Outlives db
  | .updating scope pair =>
      (∀ own, pair = some own → own.Outlives db) ∧
        (transaction.signOut ≠ none → scope = .user ∧ pair ≠ none)
  | .applying scope matched pair =>
      (∀ own, pair = some own → own.Outlives db) ∧
        (transaction.signOut ≠ none → scope = .user ∧ pair ≠ none ∧
          ∀ token row, (transaction.view db.tokens).get? token = some row →
            row.revoked = false → token ∈ matched)
  | .closing _ => transaction.signOut = none
  | .issuing pair =>
      pair.Outlives db ∧ ∀ own, transaction.signOut = some own →
        (∀ token row, (transaction.view db.tokens).get? token = some row →
          row.revoked = true) ∧
        ∀ token ∈ own.revoked, ∃ row,
          (transaction.view db.tokens).get? token = some row ∧
            row.rotatedAt = none

structure Holding (db : Db) (transaction : Tx) : Prop where
  rank : transaction.rank < db.nextRank ∧
    (∀ signOut ∈ db.signOuts, signOut.rank < transaction.rank) ∧
    ∀ issue ∈ db.issues, issue.rank < transaction.rank
  view : OnlyRevokes db.tokens (transaction.view db.tokens)
  rotated : RotatedRevoked (transaction.view db.tokens)
  user : ∀ signOut ∈ db.signOuts,
    signOut.Kept (transaction.user.getD db.user)
  own : ∀ signOut, transaction.signOut = some signOut →
    signOut.rank = transaction.rank ∧ signOut.cutoff ≤ db.now ∧
      signOut.Kept (transaction.user.getD db.user)
  stage : transaction.stage.Holds db transaction

/-- A transaction that waits for the lock has written nothing. -/
def Tx.Clean (transaction : Tx) : Prop :=
  transaction.user = none ∧ transaction.written = [] ∧
    transaction.signOut = none

structure Sound (db : Db) : Prop where
  settled : Settled db
  exclusive : ∀ tx transaction, db.transactions.get? tx = some transaction →
    transaction.stage.holds = true → db.holder = some tx
  holding : ∀ tx transaction, db.transactions.get? tx = some transaction →
    transaction.stage.holds = true → Holding db transaction
  waiting : ∀ tx transaction, db.transactions.get? tx = some transaction →
    transaction.stage.holds = false → transaction.Clean

theorem Db.sound_start (user : UserRow) (totpActivatedAt : Option Time)
    (now : Time) : Sound (Db.start user totpActivatedAt now) where
  settled := by constructor <;> simp [Db.start, RotatedRevoked]
  exclusive := by simp [Db.start]
  holding := by simp [Db.start]
  waiting := by simp [Db.start]

/-- The committed rows stay; the clock and the ranks may go on. -/
structure SameRows (db next : Db) : Prop where
  user : next.user = db.user
  tokens : next.tokens = db.tokens
  inserted : next.inserted = db.inserted
  issues : next.issues = db.issues
  signOuts : next.signOuts = db.signOuts
  now : db.now ≤ next.now
  nextRank : db.nextRank ≤ next.nextRank

theorem Settled.transfer (settled : Settled db) (same : SameRows db next) :
    Settled next where
  ranks := by
    rw [same.signOuts, same.issues]
    have later := same.nextRank
    exact ⟨fun signOut mem => Nat.lt_of_lt_of_le (settled.ranks.1 signOut mem)
        later,
      fun issue mem => Nat.lt_of_lt_of_le (settled.ranks.2 issue mem) later⟩
  past := by
    rw [same.signOuts]
    intro signOut mem
    exact Int.le_trans (settled.past signOut mem) same.now
  user := by simpa [same.signOuts, same.user] using settled.user
  rotated := by simpa [same.tokens] using settled.rotated
  revoked := by simpa [same.signOuts, same.tokens] using settled.revoked
  live := by
    simpa [same.signOuts, same.tokens, same.inserted] using settled.live
  issued := by simpa [same.signOuts, same.issues] using settled.issued

theorem Holding.transfer {transaction : Tx} (holding : Holding db transaction)
    (same : SameRows db next) : Holding next transaction where
  rank := by
    rw [same.signOuts, same.issues]
    exact ⟨Nat.lt_of_lt_of_le holding.rank.1 same.nextRank, holding.rank.2⟩
  view := same.tokens ▸ holding.view
  rotated := same.tokens ▸ holding.rotated
  user := by simpa [same.signOuts, same.user] using holding.user
  own := by
    intro signOut own
    obtain ⟨rank, past, kept⟩ := holding.own signOut own
    exact ⟨rank, Int.le_trans past same.now, same.user ▸ kept⟩
  stage := by
    have outlives : ∀ pair : Pair, pair.Outlives next ↔ pair.Outlives db := by
      simp [Pair.Outlives, same.signOuts]
    have stage := holding.stage
    revert stage
    cases transaction.stage <;>
      simp [Stage.Holds, outlives, same.user, same.tokens]

/-- A step of one transaction that commits nothing. -/
theorem Sound.of_sameRows (sound : Sound db) (tx : TxId)
    (same : SameRows db next)
    (holder : ∀ other, other ≠ tx → db.holder = some other →
      next.holder = some other)
    (others : ∀ other transaction, other ≠ tx →
      next.transactions.get? other = some transaction →
      db.transactions.get? other = some transaction)
    (own : ∀ transaction, next.transactions.get? tx = some transaction →
      (transaction.stage.holds = true →
        next.holder = some tx ∧ Holding next transaction) ∧
      (transaction.stage.holds = false → transaction.Clean)) :
    Sound next where
  settled := sound.settled.transfer same
  exclusive := by
    intro other transaction stored holds
    by_cases isTx : other = tx
    · subst isTx
      exact ((own transaction stored).1 holds).1
    · exact holder other isTx (sound.exclusive other transaction
        (others other transaction isTx stored) holds)
  holding := by
    intro other transaction stored holds
    by_cases isTx : other = tx
    · subst isTx
      exact ((own transaction stored).1 holds).2
    · exact (sound.holding other transaction
        (others other transaction isTx stored) holds).transfer same
  waiting := by
    intro other transaction stored waits
    by_cases isTx : other = tx
    · subst isTx
      exact (own transaction stored).2 waits
    · exact sound.waiting other transaction
        (others other transaction isTx stored) waits

theorem sameRows_setTx (db : Db) (tx : TxId) (transaction : Tx) :
    SameRows db (db.setTx tx transaction) :=
  ⟨rfl, rfl, rfl, rfl, rfl, Int.le_refl _, Nat.le_refl _⟩

theorem Sound.setTx_waiting (sound : Sound db) (tx : TxId) {transaction : Tx}
    (waiting : transaction.stage.holds = false) (clean : transaction.Clean) :
    Sound (db.setTx tx transaction) := by
  apply sound.of_sameRows tx (sameRows_setTx db tx transaction)
  · exact fun _ _ held => held
  · intro other found different stored
    rwa [Db.setTx, Table.get?_put_ne _ _ different] at stored
  · intro found stored
    simp only [Db.setTx, Table.get?_put_self, Option.some.injEq] at stored
    subst stored
    exact ⟨by simp [waiting], fun _ => clean⟩

theorem Sound.setTx_holding (sound : Sound db) {tx : TxId} {transaction : Tx}
    (holder : db.holder = some tx) (holding : Holding db transaction) :
    Sound (db.setTx tx transaction) := by
  have holds : transaction.stage.holds = true := by
    have stage := holding.stage
    revert stage
    cases transaction.stage <;> simp [Stage.Holds, Stage.holds]
  have same := sameRows_setTx db tx transaction
  apply sound.of_sameRows tx same
  · exact fun _ _ held => held
  · intro other found different stored
    rwa [Db.setTx, Table.get?_put_ne _ _ different] at stored
  · intro found stored
    simp only [Db.setTx, Table.get?_put_self, Option.some.injEq] at stored
    subst stored
    exact ⟨fun _ => ⟨holder, holding.transfer same⟩, by simp [holds]⟩

theorem Sound.endTx (sound : Sound db) (tx : TxId) : Sound (db.endTx tx) := by
  have same : SameRows db (db.endTx tx) :=
    ⟨rfl, rfl, rfl, rfl, rfl, Int.le_refl _, Nat.le_refl _⟩
  apply sound.of_sameRows tx same
  · intro other different held
    simp [Db.endTx, held, different]
  · intro other transaction different stored
    simpa [Db.endTx, different] using stored
  · intro transaction stored
    simp [Db.endTx] at stored

end Brook.Auth
