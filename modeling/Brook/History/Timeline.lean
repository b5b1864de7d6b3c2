import Brook.History.System
import Brook.Cache.Home

namespace Brook

/-! What an earlier state of the server still says about the present one. -/

structure Extends (past present : Server) : Prop where
  counter : past.counter ≤ present.counter
  drawn : ∀ {id message}, past.messages.get? id = some message →
    id ∈ present.messageIds
  channel : ∀ {id old new}, past.messages.get? id = some old →
    present.messages.get? id = some new → new.channelId = old.channelId
  unchanged : ∀ {id message}, present.messages.get? id = some message →
    message.seq ≤ past.counter → past.messages.get? id = some message

namespace Extends

theorem refl {server : Server} (wf : server.Wf) : Extends server server where
  counter := Int.le_refl _
  drawn := wf.messageIds
  channel old new := by
    rw [old] at new
    cases new
    rfl
  unchanged stored _ := stored

theorem serve {past before after : Server} (since : Extends past before)
    (committed : Server.Committed before after) : Extends past after where
  counter := by
    have numbered := committed.counter
    have earlier := since.counter
    omega
  drawn stored := committed.messageIds (since.drawn stored)
  channel := by
    intro id old new stored now
    have change := committed.messages id
    rw [now] at change
    cases h : before.messages.get? id with
    | none =>
        rw [h] at change
        cases change with
        | created _ undrawn => exact (undrawn (since.drawn stored)).elim
    | some middle =>
        have kept := since.channel stored h
        rw [h] at change
        cases change with
        | same => exact kept
        | stamped _ same _ => exact same.trans kept
  unchanged := by
    intro id message now known
    have numbered := committed.counter
    have earlier := since.counter
    have change := committed.messages id
    rw [now] at change
    cases h : before.messages.get? id with
    | none =>
        rw [h] at change
        cases change with
        | created seq _ => omega
    | some middle =>
        rw [h] at change
        cases change with
        | same => exact since.unchanged h known
        | stamped seq _ _ => omega

end Extends

/-- The states of the server while the caller is in the channel. -/
structure Timeline (me : UserId) (channel : ChannelId) (server : Server)
    (past : List Server) : Prop where
  current : server ∈ past
  wf : ∀ {state}, state ∈ past → state.Wf
  inside : ∀ {state}, state ∈ past → state.isMember channel me = true
  since : ∀ {state}, state ∈ past → Extends state server

namespace Timeline

variable {me : UserId} {channel : ChannelId}

theorem start {server : Server} (wf : server.Wf)
    (inside : server.isMember channel me = true) :
    Timeline me channel server [server] where
  current := List.mem_singleton_self server
  wf member := by
    rw [List.mem_singleton] at member
    exact member ▸ wf
  inside member := by
    rw [List.mem_singleton] at member
    exact member ▸ inside
  since member := by
    rw [List.mem_singleton] at member
    subst member
    exact Extends.refl wf

theorem serve {before after : Server} {past : List Server}
    (timeline : Timeline me channel before past) {request : Request}
    (handled : before.handle request = some after)
    (inside : after.isMember channel me = true) :
    Timeline me channel after (after :: past) := by
  have wf := Server.handle_wf (timeline.wf timeline.current) handled
  constructor
  case current => exact List.mem_cons_self
  case wf =>
    intro state member
    rcases List.mem_cons.mp member with rfl | earlier
    · exact wf
    · exact timeline.wf earlier
  case inside =>
    intro state member
    rcases List.mem_cons.mp member with rfl | earlier
    · exact inside
    · exact timeline.inside earlier
  case since =>
    intro state member
    rcases List.mem_cons.mp member with rfl | earlier
    · exact Extends.refl wf
    · rcases Server.handle_cases (timeline.wf timeline.current) handled with
        rfl | committed
      · exact timeline.since earlier
      · exact (timeline.since earlier).serve committed

/-- The channel of a member is stored. -/
theorem channel_stored {server state : Server} {past : List Server}
    (timeline : Timeline me channel server past) (member : state ∈ past) :
    ∃ row, state.channels.get? channel = some row := by
  obtain ⟨own, stored⟩ := Server.isMember_iff.mp (timeline.inside member)
  obtain ⟨row, found, _⟩ := (timeline.wf member).memberChannel stored
  exact ⟨row, found⟩

end Timeline

end Brook
