import Brook.Channels.Ownership

namespace Brook.Channels

open Transition

variable {db next : Db} {tx : TxId} {transaction : Tx}
variable {channel : ChannelId} {user caller : UserId}

/-- Whoever made an offer may still make it. -/
def Authority (db : Db) (channel : ChannelId) (user : UserId) : Prop :=
  db.isAdmin user = true ∨ db.role channel user = some .owner

structure Owned (db : Db) : Prop where
  owner : ∀ channel row, db.channels.get? channel = some row →
    row.kind = .channel → ∃ user, db.role channel user = some .owner
  offers : ∀ channel user offeredBy,
    db.offers.get? (channel, user) = some offeredBy →
    db.role channel user = some .member ∧ Authority db channel offeredBy

/-- The member may go: whoever they are, an owner remains. -/
def Removable (db : Db) (channel : ChannelId) (user : UserId) : Prop :=
  ∃ role, db.role channel user = some role ∧
    (role = .owner →
      ∃ other, other ≠ user ∧ db.role channel other = some .owner)

/-- What a holder of the channel's row has read and is still so. -/
def Tx.Holds (db : Db) (transaction : Tx) : Prop :=
  match transaction.route, transaction.stage with
  | .removeMember channel user, .target role =>
      db.role channel user = some role
  | .removeMember channel user, .cleared => Removable db channel user
  | .removeMember channel user, .writing offers =>
      Removable db channel user ∧ ∀ other offeredBy,
        db.offers.get? (channel, other) = some offeredBy →
        other = user ∨ offeredBy = user → other ∈ offers
  | .offerOwnership channel _, .checked _ =>
      Authority db channel transaction.caller
  | .offerOwnership channel user, .cleared
  | .offerOwnership channel user, .writing _ =>
      Authority db channel transaction.caller ∧
        db.role channel user = some .member
  | _, _ => True

/-- Every offer belongs to a channel that exists. -/
def OffersStored (db : Db) : Prop :=
  ∀ channel user offeredBy, db.offers.get? (channel, user) = some offeredBy →
    db.channels.contains channel = true

structure Sound (db : Db) : Prop where
  owned : Owned db
  offersStored : OffersStored db
  locked : ∀ tx transaction, db.transactions.get? tx = some transaction →
    transaction.stage ≠ .begun → ∀ channel,
    transaction.route.locks = some channel →
    db.locks.get? channel = some tx ∧ db.channels.contains channel = true
  holds : ∀ tx transaction, db.transactions.get? tx = some transaction →
    transaction.Holds db

theorem sound_start (admins users : List UserId) :
    Sound (Db.start admins users) := by
  constructor
  · constructor <;> simp [Db.start]
  all_goals simp [Db.start, OffersStored]

/-! ### What the holder of a channel's row relies on -/

/-- A step by someone else: members may come, nothing else about the channel
changes. -/
structure Kept (channel : ChannelId) (db next : Db) : Prop where
  roles : ∀ {user role}, db.role channel user = some role →
    next.role channel user = some role
  offers : ∀ user,
    next.offers.get? (channel, user) = db.offers.get? (channel, user)
  admins : next.admins = db.admins

theorem Kept.authority (kept : Kept channel db next)
    (authority : Authority db channel user) : Authority next channel user := by
  rcases authority with admin | owner
  · exact Or.inl (by simpa [Db.isAdmin, kept.admins] using admin)
  · exact Or.inr (kept.roles owner)

theorem Kept.removable (kept : Kept channel db next)
    (removable : Removable db channel user) : Removable next channel user := by
  obtain ⟨role, stored, other⟩ := removable
  refine ⟨role, kept.roles stored, ?_⟩
  intro owner
  obtain ⟨successor, different, owns⟩ := other owner
  exact ⟨successor, different, kept.roles owns⟩

theorem Tx.Holds.kept (holds : transaction.Holds db)
    (kept : ∀ channel, transaction.stage ≠ .begun →
      transaction.route.locks = some channel → Kept channel db next) :
    transaction.Holds next := by
  obtain ⟨caller, route, stage⟩ := transaction
  cases route with
  | removeMember channel user =>
      cases stage with
      | target role => exact (kept channel (by simp) rfl).roles holds
      | cleared => exact (kept channel (by simp) rfl).removable holds
      | writing offers =>
          have same := kept channel (by simp) rfl
          refine ⟨same.removable holds.1, ?_⟩
          intro other offeredBy stored
          rw [same.offers] at stored
          exact holds.2 other offeredBy stored
      | _ => trivial
  | offerOwnership channel user =>
      cases stage with
      | checked => exact (kept channel (by simp) rfl).authority holds
      | cleared =>
          have same := kept channel (by simp) rfl
          exact ⟨same.authority holds.1, same.roles holds.2⟩
      | writing =>
          have same := kept channel (by simp) rfl
          exact ⟨same.authority holds.1, same.roles holds.2⟩
      | _ => trivial
  | _ => trivial

theorem Kept.of_eq (channel : ChannelId)
    (memberships : next.memberships = db.memberships)
    (offers : next.offers = db.offers) (admins : next.admins = db.admins) :
    Kept channel db next :=
  ⟨by simp [Db.role, memberships], by simp [offers], admins⟩

theorem role_put_ne {other : ChannelId × UserId} {role : Role}
    (different : (channel, user) ≠ other) :
    (db.memberships.put other role).get? (channel, user) =
      db.role channel user :=
  Table.get?_put_ne _ _ different

theorem insertMember_kept (channel other : ChannelId) (user : UserId) :
    Kept channel db (insertMember db other user) := by
  unfold insertMember
  split
  · rename_i absent
    refine ⟨?_, fun _ => rfl, rfl⟩
    intro member role stored
    by_cases same : (channel, member) = (other, user)
    · cases same
      simp [absent.2] at stored
    · exact (role_put_ne same).trans stored
  · exact Kept.of_eq channel rfl rfl rfl

/-- A commit leaves alone every channel that is locked by someone else. -/
theorem write_kept {offers : List UserId} {route : Route}
    (written : write db caller offers route = some next)
    (stored : db.channels.contains channel = true)
    (locked : db.locks.contains channel = true)
    (elsewhere : route.locks ≠ some channel) : Kept channel db next := by
  cases route with
  | createChannel other isPublic =>
      simp only [write] at written
      split at written
      · cases written
      · rename_i fresh
        cases written
        have different : channel ≠ other := by
          rintro rfl
          exact fresh stored
        refine ⟨?_, fun _ => rfl, rfl⟩
        intro user role member
        exact (role_put_ne (by simp [different])).trans member
  | openDm other second =>
      simp only [write] at written
      split at written
      · cases written
      · rename_i fresh
        cases written
        have different : channel ≠ other := by
          rintro rfl
          exact fresh stored
        refine ⟨?_, fun _ => rfl, rfl⟩
        intro user role member
        simp only [Db.role]
        rw [Table.get?_put_ne _ _ (by simp [different])]
        exact (role_put_ne (by simp [different])).trans member
  | addMember other user =>
      cases written
      exact insertMember_kept channel other user
  | joinChannel other =>
      cases written
      exact insertMember_kept channel other caller
  | removeMember other user =>
      cases written
      have different : channel ≠ other := by
        rintro rfl
        exact elsewhere rfl
      refine ⟨by simp [Db.role, different], ?_, rfl⟩
      intro member
      exact Table.get?_filter_kept _ (by simp [different])
  | offerOwnership other user =>
      cases written
      have different : channel ≠ other := by
        rintro rfl
        exact elsewhere rfl
      refine ⟨fun member => member, ?_, rfl⟩
      intro member
      exact Table.get?_put_ne _ _ (by simp [different])
  | withdrawOffer other user =>
      cases written
      have different : channel ≠ other := by
        rintro rfl
        exact elsewhere rfl
      refine ⟨fun member => member, ?_, rfl⟩
      intro member
      exact Table.get?_filter_kept _ (by simp [different])
  | acceptOwnership other =>
      cases written
      have different : channel ≠ other := by
        rintro rfl
        exact elsewhere rfl
      refine ⟨?_, ?_, rfl⟩
      · intro user role member
        exact (role_put_ne (by simp [different])).trans member
      · intro member
        exact Table.get?_filter_kept _ (by simp [different])
  | declineOwnership other =>
      cases written
      have different : channel ≠ other := by
        rintro rfl
        exact elsewhere rfl
      refine ⟨fun member => member, ?_, rfl⟩
      intro member
      exact Table.get?_filter_kept _ (by simp [different])
  | deleteChannel other =>
      simp only [write] at written
      split at written
      · cases written
      · rename_i free
        cases written
        have different : channel ≠ other := by
          rintro rfl
          exact free locked
        refine ⟨by simp [Db.role, different], ?_, rfl⟩
        intro member
        exact Table.get?_filter_kept _ (by simp [different])

theorem write_frame {offers : List UserId} {route : Route}
    (written : write db caller offers route = some next) :
    next.transactions = db.transactions ∧ next.locks = db.locks := by
  cases route with
  | createChannel | openDm | deleteChannel =>
      simp only [write] at written
      split at written
      · cases written
      · cases written
        exact ⟨rfl, rfl⟩
  | addMember | joinChannel =>
      cases written
      unfold insertMember
      split <;> exact ⟨rfl, rfl⟩
  | _ =>
      cases written
      exact ⟨rfl, rfl⟩

theorem write_contains {offers : List UserId} {route : Route}
    (written : write db caller offers route = some next)
    (locked : db.locks.contains channel = true)
    (stored : db.channels.contains channel = true) :
    next.channels.contains channel = true := by
  cases route with
  | createChannel | openDm =>
      simp only [write] at written
      split at written
      · cases written
      · cases written
        simp only [Table.contains, Table.get?_put]
        split
        · rfl
        · exact stored
  | addMember | joinChannel =>
      cases written
      unfold insertMember
      split <;> exact stored
  | deleteChannel other =>
      simp only [write] at written
      split at written
      · cases written
      · rename_i free
        cases written
        have different : channel ≠ other := by
          rintro rfl
          exact free locked
        simpa [Table.contains, different] using stored
  | _ =>
      cases written
      exact stored

/-! ### The commits -/

theorem Owned.of_kept (owned : Owned db)
    (channels : ∀ channel row, next.channels.get? channel = some row →
      db.channels.get? channel = some row)
    (offers : ∀ key offeredBy, next.offers.get? key = some offeredBy →
      db.offers.get? key = some offeredBy)
    (roles : ∀ channel user role, db.role channel user = some role →
      next.role channel user = some role)
    (admins : next.admins = db.admins) : Owned next where
  owner := by
    intro channel row stored kind
    obtain ⟨user, owns⟩ :=
      owned.owner channel row (channels channel row stored) kind
    exact ⟨user, roles channel user .owner owns⟩
  offers := by
    intro channel user offeredBy stored
    obtain ⟨member, authority⟩ :=
      owned.offers channel user offeredBy (offers _ _ stored)
    refine ⟨roles channel user .member member, ?_⟩
    rcases authority with admin | owner
    · exact Or.inl (by simpa [Db.isAdmin, admins] using admin)
    · exact Or.inr (roles channel offeredBy .owner owner)

theorem insertMember_owned (owned : Owned db) (channel : ChannelId)
    (user : UserId) : Owned (insertMember db channel user) := by
  apply owned.of_kept
  · intro other row stored
    unfold insertMember at stored
    split at stored <;> exact stored
  · intro key offeredBy stored
    unfold insertMember at stored
    split at stored <;> exact stored
  · exact fun other member role stored =>
      (insertMember_kept other channel user).roles stored
  · unfold insertMember
    split <;> rfl

/-- A new channel: its members are its own, nobody was offered anything yet. -/
theorem newChannel_owned (owned : Owned db) (offersStored : OffersStored db)
    (fresh : ¬ db.channels.contains channel = true) {row : Channel}
    {memberships : Table (ChannelId × UserId) Role}
    (others : ∀ other user, other ≠ channel →
      memberships.get? (other, user) = db.role other user)
    (owner : row.kind = .channel →
      ∃ user, memberships.get? (channel, user) = some .owner) :
    Owned { db with
      channels := db.channels.put channel row, memberships } where
  owner := by
    intro other found stored kind
    simp only [Table.get?_put] at stored
    split at stored
    · rename_i same
      cases stored
      exact same ▸ owner kind
    · rename_i different
      obtain ⟨user, owns⟩ := owned.owner other found stored kind
      exact ⟨user, (others other user different).trans owns⟩
  offers := by
    intro other user offeredBy stored
    have different : other ≠ channel := by
      rintro rfl
      exact fresh (offersStored other user offeredBy stored)
    obtain ⟨member, authority⟩ := owned.offers other user offeredBy stored
    refine ⟨(others other user different).trans member, ?_⟩
    rcases authority with admin | owner
    · exact Or.inl admin
    · exact Or.inr ((others other offeredBy different).trans owner)

theorem removeMember_owned (owned : Owned db)
    (removable : Removable db channel user) {offers : List UserId}
    (complete : ∀ other offeredBy,
      db.offers.get? (channel, other) = some offeredBy →
      other = user ∨ offeredBy = user → other ∈ offers) :
    Owned { db with
      memberships := db.memberships.filter fun key _ => key ≠ (channel, user)
      offers := db.offers.filter fun key _ =>
        ¬ (key.1 = channel ∧ key.2 ∈ offers) } := by
  have kept : ∀ other member role, (other, member) ≠ (channel, user) →
      db.role other member = some role →
      (db.memberships.filter fun key _ => key ≠ (channel, user)).get?
        (other, member) = some role := by
    intro other member role different stored
    rw [Table.get?_filter, Option.filter_eq_some_iff]
    exact ⟨stored, by simpa only [decide_eq_true_eq] using different⟩
  constructor
  · intro other row stored kind
    obtain ⟨holder, owns⟩ := owned.owner other row stored kind
    by_cases same : (other, holder) = (channel, user)
    · cases same
      obtain ⟨role, mine, successor⟩ := removable
      rw [owns, Option.some.injEq] at mine
      obtain ⟨next, different, nextOwns⟩ := successor mine.symm
      exact ⟨next, kept _ next .owner (by simp [different]) nextOwns⟩
    · exact ⟨holder, kept other holder .owner same owns⟩
  · intro other member offeredBy stored
    simp only [Table.get?_filter, Option.filter_eq_some_iff,
      decide_eq_true_eq] at stored
    obtain ⟨offered, stays⟩ := stored
    obtain ⟨isMember, authority⟩ := owned.offers other member offeredBy offered
    have apart : other = channel → member ≠ user ∧ offeredBy ≠ user := by
      rintro rfl
      constructor
      · exact fun same =>
          stays ⟨rfl, complete member offeredBy offered (Or.inl same)⟩
      · exact fun same =>
          stays ⟨rfl, complete member offeredBy offered (Or.inr same)⟩
    refine ⟨kept other member .member ?_ isMember, ?_⟩
    · rintro ⟨⟩
      exact (apart rfl).1 rfl
    · rcases authority with admin | owner
      · exact Or.inl admin
      · refine Or.inr (kept other offeredBy .owner ?_ owner)
        rintro ⟨⟩
        exact (apart rfl).2 rfl

theorem acceptOwnership_owned (owned : Owned db) :
    Owned { dropOffer db channel caller with
      memberships := db.memberships.put (channel, caller) .owner } where
  owner := by
    intro other row stored kind
    obtain ⟨user, owns⟩ := owned.owner other row stored kind
    refine ⟨user, ?_⟩
    simp only [Db.role, Table.get?_put]
    split
    · rfl
    · exact owns
  offers := by
    intro other user offeredBy stored
    simp only [dropOffer, Table.get?_filter, Option.filter_eq_some_iff,
      decide_eq_true_eq] at stored
    obtain ⟨member, authority⟩ := owned.offers other user offeredBy stored.1
    refine ⟨(role_put_ne stored.2).trans member, ?_⟩
    rcases authority with admin | owner
    · exact Or.inl admin
    · apply Or.inr
      simp only [Db.role, Table.get?_put]
      split
      · rfl
      · exact owner

theorem deleteChannel_owned (owned : Owned db) :
    Owned { db with
      channels := db.channels.filter fun other _ => other ≠ channel
      memberships := db.memberships.filter fun key _ => key.1 ≠ channel
      offers := db.offers.filter fun key _ => key.1 ≠ channel } := by
  have kept : ∀ other user, other ≠ channel →
      (db.memberships.filter fun key _ => key.1 ≠ channel).get?
        (other, user) = db.role other user :=
    fun other user different =>
      Table.get?_filter_kept _ fun _ => by simpa using different
  constructor
  · intro other row stored kind
    simp only [Table.get?_filter, Option.filter_eq_some_iff,
      decide_eq_true_eq] at stored
    obtain ⟨user, owns⟩ := owned.owner other row stored.1 kind
    exact ⟨user, (kept other user stored.2).trans owns⟩
  · intro other user offeredBy stored
    simp only [Table.get?_filter, Option.filter_eq_some_iff,
      decide_eq_true_eq] at stored
    obtain ⟨member, authority⟩ := owned.offers other user offeredBy stored.1
    refine ⟨(kept other user stored.2).trans member, ?_⟩
    rcases authority with admin | owner
    · exact Or.inl admin
    · exact Or.inr ((kept other offeredBy stored.2).trans owner)

theorem dropOffer_owned (owned : Owned db) (channel : ChannelId)
    (user : UserId) : Owned (dropOffer db channel user) := by
  apply owned.of_kept
  · exact fun _ _ stored => stored
  · intro key offeredBy stored
    simp only [dropOffer, Table.get?_filter,
      Option.filter_eq_some_iff] at stored
    exact stored.1
  · exact fun _ _ _ stored => stored
  · rfl

theorem write_owned {offers : List UserId} {route : Route}
    (owned : Owned db) (offersStored : OffersStored db)
    (holds : Tx.Holds db ⟨caller, route, .writing offers⟩)
    (written : write db caller offers route = some next) : Owned next := by
  cases route with
  | createChannel channel isPublic =>
      simp only [write] at written
      split at written
      · cases written
      · rename_i fresh
        cases written
        apply newChannel_owned owned offersStored fresh
        · exact fun other user different =>
            role_put_ne (by simp [different])
        · exact fun _ => ⟨caller, Table.get?_put_self _ _ _⟩
  | openDm channel other =>
      simp only [write] at written
      split at written
      · cases written
      · rename_i fresh
        cases written
        apply newChannel_owned owned offersStored fresh
        · intro third user different
          rw [Table.get?_put_ne _ _ (by simp [different])]
          exact role_put_ne (by simp [different])
        · simp
  | addMember channel user =>
      cases written
      exact insertMember_owned owned channel user
  | joinChannel channel =>
      cases written
      exact insertMember_owned owned channel caller
  | removeMember channel user =>
      cases written
      exact removeMember_owned owned holds.1 holds.2
  | offerOwnership channel user =>
      cases written
      refine ⟨owned.owner, ?_⟩
      intro other member offeredBy stored
      simp only [Table.get?_put] at stored
      split at stored
      · rename_i same
        cases same
        cases stored
        exact ⟨holds.2, holds.1⟩
      · exact owned.offers other member offeredBy stored
  | withdrawOffer channel user =>
      cases written
      exact dropOffer_owned owned channel user
  | acceptOwnership channel =>
      cases written
      exact acceptOwnership_owned owned
  | declineOwnership channel =>
      cases written
      exact dropOffer_owned owned channel caller
  | deleteChannel channel =>
      simp only [write] at written
      split at written
      · cases written
      · cases written
        exact deleteChannel_owned owned

theorem write_offersStored {offers : List UserId} {route : Route}
    (offersStored : OffersStored db)
    (stored : ∀ channel, route.locks = some channel →
      db.channels.contains channel = true)
    (written : write db caller offers route = some next) :
    OffersStored next := by
  cases route with
  | createChannel | openDm =>
      simp only [write] at written
      split at written
      · cases written
      · cases written
        intro other user offeredBy offered
        simp only [Table.contains, Table.get?_put]
        split
        · rfl
        · exact offersStored other user offeredBy offered
  | addMember | joinChannel =>
      cases written
      unfold insertMember
      split <;> exact offersStored
  | offerOwnership channel user =>
      cases written
      intro other member offeredBy offered
      simp only [Table.get?_put] at offered
      split at offered
      · rename_i same
        cases same
        exact stored channel rfl
      · exact offersStored other member offeredBy offered
  | deleteChannel channel =>
      simp only [write] at written
      split at written
      · cases written
      · cases written
        intro other user offeredBy offered
        simp only [Table.get?_filter, Option.filter_eq_some_iff,
          decide_eq_true_eq] at offered
        simp only [Table.contains]
        rw [Table.get?_filter_kept _ fun _ => by simpa using offered.2]
        exact offersStored other user offeredBy offered.1
  | removeMember | withdrawOffer | acceptOwnership | declineOwnership =>
      cases written
      intro other user offeredBy offered
      simp only [dropOffer, Table.get?_filter,
        Option.filter_eq_some_iff] at offered
      exact offersStored other user offeredBy offered.1

/-! ### The statements before a commit -/

/-- A step that writes nothing and moves one transaction on. -/
theorem Sound.setStage (sound : Sound db) {stage : Stage}
    (holds : Tx.Holds db { transaction with stage })
    (locked : stage ≠ .begun → ∀ channel,
      transaction.route.locks = some channel →
      db.locks.get? channel = some tx ∧
        db.channels.contains channel = true) :
    Sound (db.setStage tx transaction stage) where
  owned := ⟨sound.owned.owner, sound.owned.offers⟩
  offersStored := sound.offersStored
  locked := by
    intro other found stored begun channel locks
    simp only [Db.setStage, Table.get?_put] at stored
    split at stored
    · rename_i same
      cases stored
      exact same ▸ locked begun channel locks
    · exact sound.locked other found stored begun channel locks
  holds := by
    intro other found stored
    have unchanged : ∀ channel,
        Kept channel db (db.setStage tx transaction stage) :=
      fun channel => Kept.of_eq channel rfl rfl rfl
    simp only [Db.setStage, Table.get?_put] at stored
    split at stored
    · cases stored
      exact holds.kept fun channel _ _ => unchanged channel
    · exact (sound.holds other found stored).kept
        fun channel _ _ => unchanged channel

theorem Sound.finish (sound : Sound db) (tx : TxId) : Sound (db.finish tx) where
  owned := ⟨sound.owned.owner, sound.owned.offers⟩
  offersStored := sound.offersStored
  locked := by
    intro other found stored begun channel locks
    simp only [Db.finish, Table.get?_filter, Option.filter_eq_some_iff,
      decide_eq_true_eq] at stored ⊢
    obtain ⟨held, exists_⟩ :=
      sound.locked other found stored.1 begun channel locks
    exact ⟨⟨held, stored.2⟩, exists_⟩
  holds := by
    intro other found stored
    simp only [Db.finish, Table.get?_filter, Option.filter_eq_some_iff]
      at stored
    exact (sound.holds other found stored.1).kept
      fun channel _ _ => Kept.of_eq channel rfl rfl rfl

theorem lockStep_sound (sound : Sound db)
    (taken : lockStep db tx transaction = some next) : Sound next := by
  unfold lockStep at taken
  split at taken
  · rename_i channel locks begun
    split at taken
    · cases taken
    · rename_i free
      split at taken
      · cases taken
        exact sound.finish tx
      · rename_i row exists_
        cases taken
        have unheld : db.locks.get? channel = none := by
          simpa [Table.contains] using free
        have unchanged : ∀ other, Kept other db
            { db.setStage tx transaction (.located row) with
              locks := db.locks.put channel tx } :=
          fun other => Kept.of_eq other rfl rfl rfl
        refine ⟨⟨sound.owned.owner, sound.owned.offers⟩, sound.offersStored,
          ?_, ?_⟩
        · intro other found storedOther begunOther otherChannel otherLocks
          simp only [Db.setStage, Table.get?_put] at storedOther ⊢
          split at storedOther
          · rename_i same
            cases storedOther
            rw [locks, Option.some.injEq] at otherLocks
            subst otherLocks
            exact ⟨by simp [same], by simp [Table.contains, exists_]⟩
          · obtain ⟨held, there⟩ := sound.locked other found storedOther
              begunOther otherChannel otherLocks
            have different : otherChannel ≠ channel := by
              rintro rfl
              simp [unheld] at held
            exact ⟨by simpa [different] using held, there⟩
        · intro other found storedOther
          simp only [Db.setStage, Table.get?_put] at storedOther
          split at storedOther
          · cases storedOther
            revert locks
            cases route : transaction.route <;> simp [Route.locks, Tx.Holds]
          · exact (sound.holds other found storedOther).kept
              fun otherChannel _ _ => unchanged otherChannel
  · cases taken

/-- Two owners are counted, so one of them is not the member who goes. -/
theorem removable_of_owners (role : Role)
    (stored : db.role channel user = some role)
    (enough : role = .owner → 1 < db.owners channel) :
    Removable db channel user := by
  refine ⟨role, stored, ?_⟩
  intro owner
  have two := enough owner
  unfold Db.owners at two
  generalize counted : (db.memberships.filter fun key role =>
    key.1 = channel && role = .owner) = table at two
  match rows : table.rows, two with
  | first :: second :: rest, _ =>
      have nodup := table.keysNodup
      simp only [rows, List.map_cons, List.nodup_cons, List.mem_cons,
        not_or] at nodup
      have owns : ∀ entry ∈ table.rows,
          entry.1.1 = channel ∧ db.role channel entry.1.2 = some .owner := by
        intro entry mem
        obtain ⟨⟨other, member⟩, role⟩ := entry
        rw [Table.mem_rows, ← counted, Table.get?_filter,
          Option.filter_eq_some_iff] at mem
        simp only [Bool.and_eq_true, decide_eq_true_eq] at mem
        obtain ⟨found, rfl, rfl⟩ := mem
        exact ⟨rfl, found⟩
      obtain ⟨firstChannel, firstOwns⟩ := owns first (by simp [rows])
      obtain ⟨secondChannel, secondOwns⟩ := owns second (by simp [rows])
      by_cases same : first.1.2 = user
      · refine ⟨second.1.2, ?_, secondOwns⟩
        rintro secondSame
        apply nodup.1.1
        exact Prod.ext (firstChannel.trans secondChannel.symm)
          (same.trans secondSame.symm)
      · exact ⟨first.1.2, same, firstOwns⟩

theorem mem_offersOf {other offeredBy : UserId}
    (stored : db.offers.get? (channel, other) = some offeredBy)
    (theirs : other = user ∨ offeredBy = user) :
    other ∈ db.offersOf channel user := by
  refine List.mem_map.mpr ⟨((channel, other), offeredBy), ?_, rfl⟩
  rw [Table.mem_rows, Table.get?_filter, Option.filter_eq_some_iff]
  exact ⟨stored, by simpa using theirs⟩

theorem readStep_moves (taken : readStep db tx transaction = some next) :
    next = db.finish tx ∨ ∃ stage, next = db.setStage tx transaction stage := by
  unfold readStep at taken
  dsimp only at taken
  repeat' split at taken
  all_goals
    first
    | (cases taken; exact Or.inl rfl)
    | (cases taken; exact Or.inr ⟨_, rfl⟩)
    | cases taken

/-- Each read ends the request, or moves it on with what its checks have
established; the routes that lock read under the lock only. -/
theorem readStep_cases (holds : transaction.Holds db)
    (taken : readStep db tx transaction = some next) :
    next = db.finish tx ∨ ∃ stage, next = db.setStage tx transaction stage ∧
      Tx.Holds db { transaction with stage } ∧
      (transaction.stage = .begun → transaction.route.locks = none) := by
  obtain ⟨caller, route, stage⟩ := transaction
  cases route with
  | removeMember channel user =>
      cases stage with
      | begun => cases taken
      | located row =>
          simp only [readStep] at taken
          split at taken
          · cases taken
            exact Or.inl rfl
          split at taken
          · cases taken
            exact Or.inl rfl
          split at taken
          · cases taken
            exact Or.inl rfl
          · cases taken
            exact Or.inr ⟨_, rfl, trivial, by simp⟩
      | checked role =>
          simp only [readStep] at taken
          split at taken
          · cases taken
            exact Or.inl rfl
          · rename_i role stored
            split at taken
            · cases taken
              exact Or.inl rfl
            · cases taken
              exact Or.inr ⟨_, rfl, stored, by simp⟩
      | target role =>
          simp only [readStep] at taken
          split at taken
          · cases taken
            exact Or.inl rfl
          · rename_i enough
            cases taken
            refine Or.inr ⟨_, rfl, ?_, by simp⟩
            apply removable_of_owners role holds
            intro owner
            simpa [owner] using enough
      | cleared =>
          cases taken
          refine Or.inr ⟨_, rfl, ?_, by simp⟩
          exact ⟨holds, fun _ _ => mem_offersOf⟩
      | writing => cases taken
  | offerOwnership channel user =>
      cases stage with
      | begun => cases taken
      | located row =>
          simp only [readStep] at taken
          split at taken
          · cases taken
            exact Or.inl rfl
          split at taken
          · cases taken
            exact Or.inl rfl
          split at taken
          · rename_i allowed
            cases taken
            refine Or.inr ⟨_, rfl, ?_, by simp⟩
            simpa [authorized, Authority, Tx.Holds] using allowed
          · cases taken
            exact Or.inl rfl
      | checked role =>
          simp only [readStep] at taken
          split at taken
          · cases taken
            exact Or.inl rfl
          split at taken
          · cases taken
            exact Or.inl rfl
          · cases taken
            exact Or.inl rfl
          · rename_i member
            cases taken
            exact Or.inr ⟨_, rfl, ⟨holds, member⟩, by simp⟩
      | target => cases taken
      | cleared =>
          simp only [readStep] at taken
          split at taken
          · cases taken
            exact Or.inl rfl
          · cases taken
            exact Or.inr ⟨_, rfl, holds, by simp⟩
      | writing => cases taken
  | _ =>
      -- nothing about these routes' reads has to last
      rcases readStep_moves taken with ended | ⟨later, went⟩
      · exact Or.inl ended
      · refine Or.inr ⟨later, went, by cases later <;> trivial, ?_⟩
        intro begun
        cases begun
        first
        | rfl
        | simp [readStep] at taken

theorem readStep_sound (sound : Sound db)
    (stored : db.transactions.get? tx = some transaction)
    (taken : readStep db tx transaction = some next) : Sound next := by
  rcases readStep_cases (sound.holds tx transaction stored) taken with
    rfl | ⟨stage, rfl, holds, unlocked⟩
  · exact sound.finish tx
  · apply sound.setStage holds
    intro _ channel locks
    by_cases begun : transaction.stage = .begun
    · simp [unlocked begun] at locks
    · exact sound.locked tx transaction stored begun channel locks

theorem commitStep_sound (sound : Sound db)
    (stored : db.transactions.get? tx = some transaction)
    (taken : commitStep db tx transaction = some next) : Sound next := by
  unfold commitStep at taken
  split at taken
  · rename_i offers writing
    obtain ⟨after, written, rfl⟩ := Option.map_eq_some_iff.mp taken
    obtain ⟨caller, route, stage⟩ := transaction
    cases writing
    have mine := sound.locked tx _ stored (by simp)
    have owned := write_owned sound.owned sound.offersStored
      (sound.holds tx _ stored) written
    have offersStored := write_offersStored sound.offersStored
      (fun channel locks => (mine channel locks).2) written
    obtain ⟨transactions, locks⟩ := write_frame written
    have others : ∀ other found,
        (after.finish tx).transactions.get? other = some found →
        db.transactions.get? other = some found ∧ other ≠ tx := by
      intro other found storedOther
      simpa [Db.finish, transactions] using storedOther
    refine ⟨⟨owned.owner, owned.offers⟩, offersStored, ?_, ?_⟩
    · intro other found storedOther begun channel wants
      obtain ⟨before, different⟩ := others other found storedOther
      obtain ⟨held, there⟩ :=
        sound.locked other found before begun channel wants
      have locked : db.locks.contains channel = true := by
        simp [Table.contains, held]
      have stays : after.channels.contains channel = true :=
        write_contains written locked there
      refine ⟨?_, stays⟩
      simpa [Db.finish, locks, held] using different
    · intro other found storedOther
      obtain ⟨before, different⟩ := others other found storedOther
      apply (sound.holds other found before).kept
      intro channel begun wants
      obtain ⟨held, there⟩ :=
        sound.locked other found before begun channel wants
      have kept : Kept channel db after := by
        apply write_kept written there (by simp [Table.contains, held])
        intro alsoMine
        have own := (mine channel alsoMine).1
        rw [held, Option.some.injEq] at own
        exact different own
      exact ⟨kept.roles, kept.offers, kept.admins⟩
  · cases taken

theorem step_sound {action : Action} (sound : Sound db)
    (taken : step db action = some next) : Sound next := by
  cases action with
  | begin tx caller route =>
      simp only [step] at taken
      split at taken
      · cases taken
      · cases taken
        apply sound.setStage
        · cases route <;> trivial
        · exact fun begun => absurd rfl begun
  | lock tx =>
      obtain ⟨transaction, stored, locked⟩ := Option.bind_eq_some_iff.mp taken
      exact lockStep_sound sound locked
  | read tx =>
      obtain ⟨transaction, stored, read⟩ := Option.bind_eq_some_iff.mp taken
      exact readStep_sound sound stored read
  | commit tx =>
      obtain ⟨transaction, stored, written⟩ := Option.bind_eq_some_iff.mp taken
      exact commitStep_sound sound stored written
  | rollback tx =>
      cases taken
      exact sound.finish tx

/-- In every state, every channel has an owner, and every pending offer names a
member who is no owner and was made by someone who could make it now. -/
theorem no_channel_ownerless {admins users : List UserId}
    {actions : List Action} {db : Db}
    (reached : run step (Db.start admins users) actions = some db) :
    (∀ channel row, db.channels.get? channel = some row →
      row.kind = .channel → ∃ user, db.role channel user = some .owner) ∧
    ∀ channel user offeredBy,
      db.offers.get? (channel, user) = some offeredBy →
      db.role channel user = some .member ∧
        (db.isAdmin offeredBy = true ∨
          db.role channel offeredBy = some .owner) := by
  have sound : Sound db :=
    run_invariant_of_step (fun sound => step_sound sound)
      (sound_start admins users) reached
  exact ⟨sound.owned.owner, sound.owned.offers⟩

/-- Two owners leave at once: the second waits for the row, counts one owner and
stays. -/
theorem no_channel_ownerless_two_leave :
    ∃ db : Db, db.channels.get? 5 = some ⟨.channel, true, false⟩ ∧
      ∃ user, db.role 5 user = some .owner := by
  obtain ⟨db, reached, stored⟩ : ∃ db : Db,
      run step (Db.start [1] [1, 2])
        [.begin 1 1 (.createChannel 5 true), .read 1, .commit 1,
          .begin 1 1 (.addMember 5 2), .read 1, .read 1, .read 1, .commit 1,
          .begin 1 1 (.offerOwnership 5 2), .lock 1, .read 1, .read 1, .read 1,
          .commit 1, .begin 1 2 (.acceptOwnership 5), .lock 1, .read 1, .read 1,
          .commit 1, .begin 1 1 (.removeMember 5 1),
          .begin 2 2 (.removeMember 5 2), .lock 1, .read 1, .read 1, .read 1,
          .read 1, .commit 1, .lock 2, .read 2, .read 2, .read 2] = some db ∧
        db.channels.get? 5 = some ⟨.channel, true, false⟩ := by
    refine ⟨_, rfl, ?_⟩
    decide +kernel
  exact ⟨db, stored, (no_channel_ownerless reached).1 5 _ stored rfl⟩

end Brook.Channels
