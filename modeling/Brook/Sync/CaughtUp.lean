import Brook.Sync.Mirror

namespace Brook

/-- The channel as the cache shows it, by its number: present, and the
caller's own membership stored and not ended. -/
def Cache.shownChannel (me : UserId) (cache : Cache) (channel : ChannelId) :
    Option Int :=
  if (cache.memberships.get? (channel, me)).any (!·.left) then
    (cache.channels.get? channel).map (·.seq)
  else
    none

/-- The caller's channel, by its number. -/
def Server.ownChannel (me : UserId) (server : Server) (channel : ChannelId) :
    Option Int :=
  if server.isMember channel me then
    (server.channels.get? channel).map (·.seq)
  else
    none

/-- The cached members of a channel, by their roles. -/
def Cache.shownRole (cache : Cache) (key : ChannelId × UserId) :
    Option (Option Role) :=
  ((cache.memberships.get? key).filter (!·.left)).map
    fun kept => kept.json.map (·.role)

structure SameView (me : UserId) (server : Server) (cache : Cache) :
    Prop where
  channels : ∀ channel,
    cache.shownChannel me channel = server.ownChannel me channel
  roles : ∀ channel user, server.isMember channel me = true →
    cache.shownRole (channel, user) =
      (server.memberships.get? (channel, user)).map fun row => some row.role
  profiles : ∀ channel user, server.isMember channel me = true →
    server.isMember channel user = true →
    ∃ kept profile, cache.users.get? user = some kept ∧
      server.users.get? user = some profile ∧ kept.json = profile.profile

namespace Mirrored

variable {me : UserId} {server : Server} {cache : Cache}

theorem heard_of_level (wf : server.Wf) (level : cache.cursor = server.counter)
    {channel : ChannelId} {own : Membership}
    (stored : server.memberships.get? (channel, me) = some own) :
    Heard me server cache.cursor channel := by
  have bound := wf.membershipSeq stored
  exact ⟨own, stored, by omega⟩

/-- A member's cached row, at the server's number. -/
theorem member_of_level (wf : server.Wf) (mirrored : Mirrored me server cache)
    (level : cache.cursor = server.counter) {channel : ChannelId}
    (heard : Heard me server cache.cursor channel) {user : UserId}
    {membership : Membership}
    (stored : server.memberships.get? (channel, user) = some membership) :
    ∃ kept, cache.memberships.get? (channel, user) = some kept ∧
      kept.left = false ∧ kept.json.map (·.role) = some membership.role := by
  have bound := wf.membershipSeq stored
  obtain ⟨kept, found, above⟩ :=
    mirrored.memberKnown heard stored (by omega)
  have faithful := mirrored.memberFaithful found stored
  have below := faithful.seq_le
  have present : kept.left = false := by
    cases left : kept.left with
    | false => rfl
    | true =>
        have early := faithful.joined left
        omega
  exact ⟨kept, found, present, faithful.role present (by omega)⟩

theorem channels_of_level (wf : server.Wf)
    (grounded : Grounded me server cache)
    (mirrored : Mirrored me server cache)
    (level : cache.cursor = server.counter) (channel : ChannelId) :
    cache.shownChannel me channel = server.ownChannel me channel := by
  cases stored : server.memberships.get? (channel, me) with
  | some own =>
      have heard := heard_of_level wf level stored
      obtain ⟨kept, mine, present, _⟩ :=
        member_of_level wf mirrored level heard stored
      obtain ⟨row, current, _⟩ := wf.memberChannel stored
      have bound := wf.channelSeq current
      obtain ⟨shown, found, above⟩ :=
        mirrored.channelKnown heard current (by omega)
      have below := mirrored.channelFaithful found current
      have same : shown.seq = row.seq := by omega
      simp [Cache.shownChannel, Server.ownChannel, mine, present, found,
        Server.isMember, Table.contains, stored, current, same]
  | none =>
      have out : server.ownChannel me channel = none := by
        simp [Server.ownChannel, Server.isMember, Table.contains, stored]
      rw [out]
      unfold Cache.shownChannel
      split
      · cases found : cache.channels.get? channel with
        | none => rfl
        | some row =>
            -- Its removal would be past the last number.
            obtain ⟨seq, member, ahead, _⟩ := grounded.outside stored found
            have bound := wf.tombstoneSeq member
            dsimp only at bound
            omega
      · rfl

theorem roles_of_level (wf : server.Wf) (mirrored : Mirrored me server cache)
    (level : cache.cursor = server.counter) {channel : ChannelId}
    (user : UserId) (inside : server.isMember channel me = true) :
    cache.shownRole (channel, user) =
      (server.memberships.get? (channel, user)).map
        fun row => some row.role := by
  obtain ⟨own, mine⟩ := Server.isMember_iff.mp inside
  have heard := heard_of_level wf level mine
  cases stored : server.memberships.get? (channel, user) with
  | some membership =>
      obtain ⟨kept, found, present, role⟩ :=
        member_of_level wf mirrored level heard stored
      simpa [Cache.shownRole, found, present] using role
  | none =>
      cases found : cache.memberships.get? (channel, user) with
      | none => simp [Cache.shownRole, found]
      | some kept =>
          cases left : kept.left with
          | true => simp [Cache.shownRole, found, left]
          | false =>
              obtain ⟨seq, member, _, ahead⟩ :=
                mirrored.memberGone found left stored
              have bound := wf.tombstoneSeq member
              have past := ahead inside
              dsimp only at bound
              omega

theorem profiles_of_level (wf : server.Wf)
    (mirrored : Mirrored me server cache)
    (level : cache.cursor = server.counter) {channel : ChannelId}
    {user : UserId} (inside : server.isMember channel me = true)
    (member : server.isMember channel user = true) :
    ∃ kept profile, cache.users.get? user = some kept ∧
      server.users.get? user = some profile ∧
      kept.json = profile.profile := by
  obtain ⟨own, mine⟩ := Server.isMember_iff.mp inside
  obtain ⟨membership, stored⟩ := Server.isMember_iff.mp member
  obtain ⟨profile, current⟩ := wf.memberUser stored
  have bound := wf.userSeq current
  have heard := heard_of_level wf level mine
  obtain ⟨kept, found, above⟩ :=
    mirrored.userKnown heard stored profile current (by omega)
  obtain ⟨below, same⟩ := mirrored.userFaithful found current
  exact ⟨kept, profile, found, current, same (by omega)⟩

theorem sameView (wf : server.Wf) (grounded : Grounded me server cache)
    (mirrored : Mirrored me server cache)
    (level : cache.cursor = server.counter) :
    SameView me server cache where
  channels := channels_of_level wf grounded mirrored level
  roles _ user inside := roles_of_level wf mirrored level user inside
  profiles _ _ inside member :=
    profiles_of_level wf mirrored level inside member

end Mirrored

namespace SyncSystem

variable {me : UserId} {system next : SyncSystem} {action : SyncAction}

/-- Two conditions on a request that adds a member.  When it brings another
user to a channel that the cache has heard of, the cache has that user's
profile or will be sent it.  When it brings the caller to a channel, every
member that the cache still holds of it is one, or left past the cursor. -/
def Announced (me : UserId) (system : SyncSystem) : SyncAction → Prop
  | .serve request =>
      (∀ channel user, request.adds system.server channel user = true →
        Heard me system.server (system.landed me).cursor channel →
        ProfileKnown system.server (system.landed me) user) ∧
      ∀ channel, request.adds system.server channel me = true →
        system.server.memberships.get? (channel, me) = none →
        ∀ user kept,
          (system.landed me).memberships.get? (channel, user) = some kept →
          kept.left = false → user ≠ me →
          system.server.memberships.get? (channel, user) = none →
          DepartureAhead system.server (system.landed me).cursor
            (channel, user)
  | _ => True

structure InStep (me : UserId) (system : SyncSystem) : Prop where
  wf : system.server.Wf
  grounded : Grounded me system.server (system.landed me)
  mirrored : Mirrored me system.server (system.landed me)

theorem inStep_init (me : UserId) : InStep me init where
  wf := Server.wf_init
  grounded := Grounded.empty me Server.wf_init 0
  mirrored := Mirrored.empty me 0 fun _ => rfl

theorem InStep.step (inStep : InStep me system)
    (announced : Announced me system action)
    (stepped : system.step me action = some next) : InStep me next := by
  obtain ⟨wf, grounded, mirrored⟩ := inStep
  rcases step_cases wf grounded stepped with
    ⟨request, after, rfl, handled, rfl⟩ |
    ⟨_, page, rfl, delivers, server, _, landed, _⟩ |
    ⟨rfl, server, _, landed, _⟩
  · have unasked : (system.serve me after).landed me = system.landed me := rfl
    rcases Server.handle_cases wf handled with same | committed
    · subst same
      exact ⟨wf, grounded, mirrored⟩
    · refine ⟨committed.wf wf, ?_, ?_⟩
      · rw [unasked]
        exact grounded.serve committed
      · rw [unasked]
        apply mirrored.serve grounded committed
        · intro channel out inside user kept found present other gone
          obtain ⟨own, joined⟩ := Server.isMember_iff.mp inside
          exact announced.2 channel (Server.handle_adds wf handled out joined)
            out user kept found present other gone
        · intro channel user membership heard out joined
          exact announced.1 channel user
            (Server.handle_adds wf handled out joined) heard
  · refine ⟨server ▸ wf, ?_, ?_⟩
    · rw [server, landed]
      exact grounded.land wf delivers
    · rw [server, landed]
      exact mirrored.land wf grounded delivers
  · refine ⟨server ▸ wf, ?_, ?_⟩
    · rw [server, landed]
      exact grounded
    · rw [server, landed]
      exact mirrored

/-- No channel has a member yet. -/
def alone (me : UserId) (system : SyncSystem) : SyncAction → Bool
  | .serve _ => system.server.memberships.rows.isEmpty &&
      (system.landed me).memberships.rows.isEmpty
  | _ => true

theorem announced_of_alone (first : alone me system action = true) :
    Announced me system action := by
  cases action with
  | serve request =>
      simp only [alone, Bool.and_eq_true, List.isEmpty_iff] at first
      obtain ⟨nobody, unknown⟩ := first
      constructor
      · intro channel user _ heard
        obtain ⟨own, stored, _⟩ := heard
        simp [Table.get?, nobody] at stored
      · intro channel _ _ user kept found
        simp [Table.get?, unknown] at found
  | ask limit => exact trivial
  | commit => exact trivial

/-- Two users and their direct channel. -/
def acquainted : List SyncAction :=
  [.serve (.register none 0 "ann".toList []),
    .serve (.register (some 0) 1 bob []),
    .serve (.openDm 0 10 bob), .ask maxPage, .commit]

/-- User 2 joins a channel of user 1 after both cursors have passed the
registration. -/
def introduced : List SyncAction :=
  [.serve (.register none 0 "ann".toList []),
    .serve (.register (some 0) 1 bob []),
    .serve (.register (some 0) 2 eve []),
    .serve (.createChannel 0 10 bob none false),
    .serve (.addMember 0 10 bob),
    .ask maxPage, .commit,
    .serve (.addMember 0 10 eve),
    .ask maxPage, .commit]

end SyncSystem

end Brook
