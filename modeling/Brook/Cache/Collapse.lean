import Brook.Cache.Excerpts
import Brook.Cache.FileRows

namespace Brook

/-! Full rows and live deletes of one channel's messages, in any order and any number of
times: what is left is the newest row of each message, and the files that it lists. -/

inductive MessageOp
  | message (history : Bool) (row : MessageRow)
  | delete (id : MessageId) (seq : Int)

namespace MessageOp

def id : MessageOp → MessageId
  | .message _ row => row.id
  | .delete id _ => id

def seq : MessageOp → Int
  | .message _ row => row.seq
  | .delete _ seq => seq

/-- What the operation does to the messages and to the tables of the file cache. -/
def run (channel : ChannelId) (held : MessageTable × FileTables) :
    MessageOp → MessageTable × FileTables
  | .message history row =>
      (MessageTable.store held.1 history row,
        if held.1.upserts newerMessage row.id (CachedMessage.ofRow row) then
          held.2.indexMessage row.id row.channelId row.json.attachments
        else held.2)
  | .delete id seq => (MessageTable.bury held.1 id channel seq, held.2.dropMessage id)

end MessageOp

namespace CachedMessage

/-- A row after a live delete. -/
def patched (old : CachedMessage) (seq : Int) : CachedMessage :=
  { old with
    seq := seq
    json := { old.json with
      body := [], deleted := true, isPartial := true, replyTo := none, attachments := [] } }

/-- A live delete of an unknown message. -/
def bare (channel : ChannelId) (seq : Int) : CachedMessage where
  channelId := channel
  seq := seq
  createdAt := none
  json := {
    authorId := none, body := [], deletedAt := false, deleted := true, isPartial := true
    replyToId := none, replyTo := none, attachments := [], clientId := none }

end CachedMessage

namespace MessageTable

variable {messages : MessageTable}

theorem get?_unquoted (messages : MessageTable) (id : MessageId) :
    (unquoted messages).get? id = (messages.get? id).map CachedMessage.unquoted := by
  rw [unquoted, Table.get?_mapRows]

/-- Apart from the quotes, what a row makes of the table. -/
theorem get?_unquoted_store (history : Bool) (row : MessageRow) (id : MessageId) :
    (unquoted (store messages history row)).get? id =
      if id = row.id then
        some (((unquoted messages).get? row.id).elim (CachedMessage.ofRow row).unquoted
          fun old =>
            if newerMessage.wins (CachedMessage.ofRow row).unquoted old then
              newerMessage.merged (CachedMessage.ofRow row).unquoted old
            else old)
      else (unquoted messages).get? id := by
  rw [unquoted_store]
  split
  case isTrue same =>
    rw [same, Table.get?_upsert_self]
    cases (unquoted messages).get? row.id <;> rfl
  case isFalse apart => exact Table.get?_upsert_ne _ _ _ apart

/-- Apart from the quotes, what a live delete makes of the table. -/
theorem get?_unquoted_bury (id : MessageId) (channel : ChannelId) (seq : Int)
    (other : MessageId) :
    (unquoted (bury messages id channel seq)).get? other =
      if other = id then
        some (((unquoted messages).get? id).elim (CachedMessage.bare channel seq)
          fun old => if old.seq < seq then old.patched seq else old)
      else (unquoted messages).get? other := by
  unfold bury
  dsimp only
  rw [unquoted_refreshExcerpts, get?_unquoted, get?_unquoted, get?_unquoted]
  cases stored : messages.get? id with
  | none =>
      dsimp only
      rw [Table.get?_put]
      split
      · rfl
      · rfl
  | some old =>
      have same : (if old.unquoted.seq < seq then old.unquoted.patched seq else old.unquoted) =
          if old.seq < seq then (old.patched seq).unquoted else old.unquoted := rfl
      rw [Option.map_some, Option.elim_some, same]
      dsimp only
      by_cases below : old.seq < seq
      · rw [if_pos below, if_pos below, Table.get?_put]
        split
        · rfl
        · rfl
      · rw [if_neg below, if_neg below]
        split
        case isTrue same =>
          rw [same, stored]
          rfl
        case isFalse => rfl

theorem upserts_unquoted (row : MessageRow) :
    messages.upserts newerMessage row.id (CachedMessage.ofRow row) =
      ((unquoted messages).get? row.id).all
        (newerMessage.wins (CachedMessage.ofRow row).unquoted) := by
  rw [get?_unquoted]
  unfold Table.upserts
  cases messages.get? row.id with
  | none => rfl
  | some old => rfl

end MessageTable

/-! ### Where the stored row of a message comes from -/

/-- The newest of the operations on a message made its stored row: a full row, or else a
live delete with no full row at or above it. -/
inductive Source (ops : List MessageOp) (channel : ChannelId) (id : MessageId)
    (kept : CachedMessage) : Prop
  | full {history row} (member : .message history row ∈ ops) (same : row.id = id)
      (stored : kept = (CachedMessage.ofRow row).unquoted)
      (top : ∀ op ∈ ops, op.id = id → op.seq ≤ row.seq)
  | bare (member : .delete id kept.seq ∈ ops) (here : kept.channelId = channel)
      (isPartial : kept.json.isPartial = true) (nothing : kept.json.attachments = [])
      (top : ∀ op ∈ ops, op.id = id → op.seq ≤ kept.seq)
      (above : ∀ history row, .message history row ∈ ops → row.id = id → row.seq < kept.seq)

namespace Source

variable {ops : List MessageOp} {channel : ChannelId} {id : MessageId} {kept : CachedMessage}

theorem top (source : Source ops channel id kept) {op : MessageOp} (member : op ∈ ops)
    (same : op.id = id) : op.seq ≤ kept.seq := by
  cases source with
  | full _ _ stored top =>
      rw [stored]
      exact top op member same
  | bare _ _ _ _ top => exact top op member same

theorem here (source : Source ops channel id kept)
    (rows : ∀ history row, .message history row ∈ ops → row.channelId = channel) :
    kept.channelId = channel := by
  cases source with
  | full member _ stored =>
      rw [stored]
      exact rows _ _ member
  | bare _ here => exact here

/-- A stored row keeps its source while nothing newer comes. -/
theorem append (source : Source ops channel id kept) {op : MessageOp}
    (older : op.id = id → op.seq ≤ kept.seq)
    (below : kept.json.isPartial = true → ∀ history row, op = .message history row → row.id = id →
      row.seq < kept.seq) : Source (ops ++ [op]) channel id kept := by
  have all : ∀ other ∈ ops ++ [op], other.id = id → other.seq ≤ kept.seq := by
    intro other member same
    rcases List.mem_append.mp member with before | new
    · exact source.top before same
    · cases List.mem_singleton.mp new
      exact older same
  cases source with
  | full member same stored _ =>
      refine .full (List.mem_append_left _ member) same stored fun other here sameId => ?_
      have bound := all other here sameId
      rw [stored] at bound
      exact bound
  | bare member here isPartial nothing _ above =>
      refine .bare (List.mem_append_left _ member) here isPartial nothing all ?_
      intro history row there same
      rcases List.mem_append.mp there with before | new
      · exact above history row before same
      · exact below isPartial history row (List.mem_singleton.mp new).symm same

end Source

/-- What operations from these tables on have made of the messages. -/
structure Collapsed (start messages : MessageTable) (channel : ChannelId)
    (ops : List MessageOp) : Prop where
  others : ∀ id, (∀ op ∈ ops, op.id ≠ id) →
    (MessageTable.unquoted messages).get? id = (MessageTable.unquoted start).get? id
  stored : ∀ op ∈ ops, ∃ kept, (MessageTable.unquoted messages).get? op.id = some kept ∧
    Source ops channel op.id kept

/-- The operations are on messages of the channel that are not stored at the start. -/
structure Unstored (start : MessageTable) (channel : ChannelId) (ops : List MessageOp) : Prop where
  absent : ∀ op ∈ ops, start.get? op.id = none
  here : ∀ history row, .message history row ∈ ops → row.channelId = channel

namespace Unstored

variable {start : MessageTable} {channel : ChannelId} {ops later : List MessageOp}

theorem front (unstored : Unstored start channel (ops ++ later)) : Unstored start channel ops where
  absent op member := unstored.absent op (List.mem_append_left _ member)
  here history row member := unstored.here history row (List.mem_append_left _ member)

end Unstored

namespace Collapsed

variable {start messages : MessageTable} {channel : ChannelId} {ops : List MessageOp}
variable {op : MessageOp} {old : CachedMessage}

theorem source (collapsed : Collapsed start messages channel ops)
    (unstored : Unstored start channel (ops ++ [op]))
    (found : (MessageTable.unquoted messages).get? op.id = some old) :
    Source ops channel op.id old := by
  by_cases known : ∃ other ∈ ops, other.id = op.id
  · obtain ⟨other, member, same⟩ := known
    obtain ⟨kept, there, source⟩ := collapsed.stored other member
    rw [same] at there source
    cases found.symm.trans there
    exact source
  · have unknown : ∀ other ∈ ops, other.id ≠ op.id := fun other member same =>
      known ⟨other, member, same⟩
    rw [collapsed.others op.id unknown, MessageTable.get?_unquoted,
      unstored.absent op (by simp)] at found
    cases found

theorem unknown (collapsed : Collapsed start messages channel ops) {id : MessageId}
    (absent : (MessageTable.unquoted messages).get? id = none) : ∀ op ∈ ops, op.id ≠ id := by
  rintro op member rfl
  obtain ⟨kept, there, -⟩ := collapsed.stored op member
  rw [absent] at there
  cases there

/-- Only the message that an operation is on changes. -/
theorem append (collapsed : Collapsed start messages channel ops) {after : MessageTable}
    (others : ∀ id, id ≠ op.id → (MessageTable.unquoted after).get? id =
      (MessageTable.unquoted messages).get? id)
    (own : ∃ kept, (MessageTable.unquoted after).get? op.id = some kept ∧
      Source (ops ++ [op]) channel op.id kept) :
    Collapsed start after channel (ops ++ [op]) where
  others id unknown := by
    rw [others id fun same => unknown op (by simp) same.symm]
    exact collapsed.others id fun other member => unknown other (List.mem_append_left _ member)
  stored other member := by
    by_cases same : other.id = op.id
    · rw [same]
      exact own
    · have before : other ∈ ops := by
        rcases List.mem_append.mp member with before | new
        · exact before
        · exact absurd (congrArg MessageOp.id (List.mem_singleton.mp new)) same
      obtain ⟨kept, there, source⟩ := collapsed.stored other before
      refine ⟨kept, (others _ same).trans there, source.append ?_ ?_⟩
      · exact fun own => absurd own.symm same
      · rintro - history row rfl own
        exact absurd own.symm same

theorem message (collapsed : Collapsed start messages channel ops) {history : Bool}
    {row : MessageRow} (unstored : Unstored start channel (ops ++ [.message history row])) :
    Collapsed start (MessageTable.store messages history row) channel
      (ops ++ [.message history row]) := by
  have member : .message history row ∈ ops ++ [.message history row] := by simp
  apply collapsed.append
  · intro id apart
    rw [MessageTable.get?_unquoted_store]
    exact if_neg apart
  · have made := @MessageTable.get?_unquoted_store messages history row row.id
    rw [if_pos rfl] at made
    refine ⟨_, made, ?_⟩
    cases found : (MessageTable.unquoted messages).get? row.id with
    | none =>
        refine .full member rfl rfl fun other there same => ?_
        rcases List.mem_append.mp there with before | new
        · exact absurd same (collapsed.unknown found other before)
        · cases List.mem_singleton.mp new
          exact le_rfl
    | some old =>
        have source := collapsed.source unstored found
        rw [Option.elim_some]
        split
        case isTrue wins =>
          -- The row is stored in the channel of the old one, which is its own.
          have merged : newerMessage.merged (CachedMessage.ofRow row).unquoted old =
              (CachedMessage.ofRow row).unquoted := by
            have sameChannel : old.channelId = row.channelId :=
              (source.here unstored.front.here).trans (unstored.here history row member).symm
            simp only [newerMessage, CachedMessage.unquoted, CachedMessage.ofRow, sameChannel]
          have bound : old.seq ≤ row.seq :=
            MessageTable.guards_newerMessage.le_of_wins wins
          rw [merged]
          refine .full member rfl rfl fun other there same => ?_
          rcases List.mem_append.mp there with before | new
          · exact le_trans (source.top before same) bound
          · cases List.mem_singleton.mp new
            exact le_rfl
        case isFalse loses =>
          have lost : row.seq ≤ old.seq ∧ ¬ (row.seq = old.seq ∧ old.json.isPartial = true) := by
            simp only [newerMessage, CachedMessage.unquoted, CachedMessage.ofRow,
              Bool.or_eq_true, decide_eq_true_eq, Bool.and_eq_true, not_or, not_lt] at loses
            exact loses
          refine source.append (fun _ => lost.1) ?_
          rintro isPartial _ _ ⟨⟩ -
          exact lt_of_le_of_ne lost.1 fun same => lost.2 ⟨same, isPartial⟩

theorem delete (collapsed : Collapsed start messages channel ops) {id : MessageId} {seq : Int}
    (unstored : Unstored start channel (ops ++ [.delete id seq])) :
    Collapsed start (MessageTable.bury messages id channel seq) channel
      (ops ++ [.delete id seq]) := by
  have member : .delete id seq ∈ ops ++ [.delete id seq] := by simp
  apply collapsed.append
  · intro other apart
    rw [MessageTable.get?_unquoted_bury]
    exact if_neg apart
  · have made := @MessageTable.get?_unquoted_bury messages id channel seq id
    rw [if_pos rfl] at made
    refine ⟨_, made, ?_⟩
    cases found : (MessageTable.unquoted messages).get? id with
    | none =>
        refine .bare member rfl rfl rfl (fun other there same => ?_)
          fun history row there same => ?_
        · rcases List.mem_append.mp there with before | new
          · exact absurd same (collapsed.unknown found other before)
          · cases List.mem_singleton.mp new
            exact le_rfl
        · rcases List.mem_append.mp there with before | new
          · exact absurd same (collapsed.unknown found _ before)
          · cases List.mem_singleton.mp new
    | some old =>
        have source := collapsed.source unstored found
        rw [Option.elim_some]
        split
        case isTrue below =>
          refine .bare member (source.here unstored.front.here) rfl rfl
            (fun other there same => ?_) fun history row there same => ?_
          · rcases List.mem_append.mp there with before | new
            · exact le_of_lt (lt_of_le_of_lt (source.top before same) below)
            · cases List.mem_singleton.mp new
              exact le_rfl
          · rcases List.mem_append.mp there with before | new
            · exact lt_of_le_of_lt (source.top before same) below
            · cases List.mem_singleton.mp new
        case isFalse above =>
          refine source.append (fun _ => not_lt.mp above) ?_
          rintro - _ _ ⟨⟩

end Collapsed

/-! ### The files of the stored messages -/

/-- No file is listed by two messages, and none that an operation lists is known. -/
structure Unshared (start : FileTables) (ops : List MessageOp) : Prop where
  apart : ∀ history row history' other file, .message history row ∈ ops →
    .message history' other ∈ ops → file ∈ row.json.attachments →
    file ∈ other.json.attachments → row.id = other.id
  unlisted : ∀ history row file, .message history row ∈ ops → file ∈ row.json.attachments →
    start.messageFiles.get? file = none
  unknown : ∀ file entry, start.messageFiles.get? file = some entry →
    ∀ op ∈ ops, op.id ≠ entry.messageId

theorem Unshared.front {start : FileTables} {ops later : List MessageOp}
    (unshared : Unshared start (ops ++ later)) : Unshared start ops where
  apart history row history' other file here there :=
    unshared.apart history row history' other file (List.mem_append_left _ here)
      (List.mem_append_left _ there)
  unlisted history row file member :=
    unshared.unlisted history row file (List.mem_append_left _ member)
  unknown file entry found op member :=
    unshared.unknown file entry found op (List.mem_append_left _ member)

/-- The index has what it had at the start, and of the messages operated on what their
stored rows list; all of that, unless a live delete came. -/
structure Listed (start tables : FileTables) (messages : MessageTable) (channel : ChannelId)
    (ops : List MessageOp) : Prop where
  origin : ∀ file entry, tables.messageFiles.get? file = some entry →
    start.messageFiles.get? file = some entry ∨
      (∃ op ∈ ops, op.id = entry.messageId) ∧ entry.channelId = channel ∧
        ∃ kept, (MessageTable.unquoted messages).get? entry.messageId = some kept ∧
          file ∈ kept.json.attachments
  kept : ∀ file entry, start.messageFiles.get? file = some entry →
    tables.messageFiles.get? file = some entry
  listed : ∀ op kept file, op ∈ ops → (∀ seq, .delete op.id seq ∉ ops) →
    (MessageTable.unquoted messages).get? op.id = some kept → file ∈ kept.json.attachments →
    tables.messageFiles.get? file = some ⟨op.id, channel⟩

namespace MessageTable

variable {messages : MessageTable} {history : Bool} {row : MessageRow}

theorem store_of_not_upserts
    (loses : messages.upserts newerMessage row.id (CachedMessage.ofRow row) = false) :
    store messages history row = messages := by
  unfold store
  dsimp only
  rw [if_neg (by rw [loses]; decide)]

/-- A row that is written lists its own files. -/
theorem get?_store_attachments
    (wins : messages.upserts newerMessage row.id (CachedMessage.ofRow row) = true)
    {kept : CachedMessage}
    (found : (unquoted (store messages history row)).get? row.id = some kept) :
    kept.json.attachments = row.json.attachments := by
  rw [get?_unquoted_store, if_pos rfl, Option.some.injEq] at found
  rw [upserts_unquoted] at wins
  rw [← found]
  cases stored : (unquoted messages).get? row.id with
  | none => rfl
  | some old =>
      rw [stored] at wins
      rw [Option.elim_some, if_pos (by exact wins)]
      rfl

end MessageTable

namespace Listed

variable {start tables : FileTables} {first messages : MessageTable} {channel : ChannelId}
variable {ops : List MessageOp}

theorem same_messages (listed : Listed start tables messages channel ops)
    {op : MessageOp} (known : ∃ other ∈ ops, other.id = op.id) :
    Listed start tables messages channel (ops ++ [op]) where
  origin file entry found := by
    rcases listed.origin file entry found with old | ⟨⟨other, member, same⟩, rest⟩
    · exact Or.inl old
    · exact Or.inr ⟨⟨other, List.mem_append_left _ member, same⟩, rest⟩
  kept := listed.kept
  listed other kept file member unburied found lists := by
    have spared : ∀ seq, .delete other.id seq ∉ ops := fun seq there =>
      unburied seq (List.mem_append_left _ there)
    rcases List.mem_append.mp member with before | new
    · exact listed.listed other kept file before spared found lists
    · cases List.mem_singleton.mp new
      obtain ⟨earlier, before, same⟩ := known
      rw [← same] at spared found ⊢
      exact listed.listed earlier kept file before spared found lists

theorem message (listed : Listed start tables messages channel ops) {history : Bool}
    {row : MessageRow} (unstored : Unstored first channel (ops ++ [.message history row]))
    (unshared : Unshared start (ops ++ [.message history row]))
    (collapsed : Collapsed first messages channel ops) :
    Listed start (MessageOp.run channel (messages, tables) (.message history row)).2
      (MessageTable.store messages history row) channel (ops ++ [.message history row]) := by
  have member : .message history row ∈ ops ++ [.message history row] := by simp
  have sameChannel := unstored.here history row member
  simp only [MessageOp.run]
  split
  case isFalse loses =>
    rw [Bool.not_eq_true] at loses
    rw [MessageTable.store_of_not_upserts loses]
    refine listed.same_messages ?_
    by_contra unknown
    have stored : (MessageTable.unquoted messages).get? row.id = none := by
      have absent : first.get? row.id = none := unstored.absent _ member
      rw [collapsed.others row.id fun op here same => unknown ⟨op, here, same⟩,
        MessageTable.get?_unquoted, absent]
      rfl
    rw [MessageTable.upserts_unquoted, stored] at loses
    cases loses
  case isTrue wins =>
    have lists : ∀ kept, (MessageTable.unquoted (MessageTable.store messages history row)).get?
        row.id = some kept → kept.json.attachments = row.json.attachments :=
      fun kept found => MessageTable.get?_store_attachments wins found
    have apart : ∀ id, id ≠ row.id →
        (MessageTable.unquoted (MessageTable.store messages history row)).get? id =
          (MessageTable.unquoted messages).get? id := by
      intro id other
      rw [MessageTable.get?_unquoted_store]
      exact if_neg other
    have own : ∃ kept, (MessageTable.unquoted (MessageTable.store messages history row)).get?
        row.id = some kept := by
      rw [MessageTable.get?_unquoted_store, if_pos rfl]
      exact ⟨_, rfl⟩
    refine ⟨fun file entry found => ?_, fun file entry found => ?_,
      fun op kept file there unburied found listsFile => ?_⟩
    · rw [FileTables.get?_indexMessage] at found
      split at found
      case isTrue here =>
        cases found
        obtain ⟨kept, stored⟩ := own
        exact Or.inr ⟨⟨_, member, rfl⟩, sameChannel, kept, stored,
          by rw [lists kept stored]; exact here⟩
      case isFalse =>
        rw [Option.filter_eq_some_iff, decide_eq_true_eq] at found
        rcases listed.origin file entry found.1 with old | ⟨⟨op, before, same⟩, rest⟩
        · exact Or.inl old
        · right
          rw [apart entry.messageId found.2]
          exact ⟨⟨op, List.mem_append_left _ before, same⟩, rest⟩
    · have here : file ∉ row.json.attachments := by
        intro listsFile
        rw [unshared.unlisted history row file member listsFile] at found
        cases found
      rw [FileTables.get?_indexMessage, if_neg here, listed.kept file entry found]
      have other := unshared.unknown file entry found _ member
      exact Option.filter_eq_some_iff.mpr ⟨rfl, decide_eq_true fun same => other same.symm⟩
    · by_cases same : op.id = row.id
      · rw [same] at found ⊢
        rw [FileTables.get?_indexMessage, if_pos (by rw [← lists kept found]; exact listsFile),
          sameChannel]
      · have before : op ∈ ops := by
          rcases List.mem_append.mp there with before | new
          · exact before
          · exact absurd (congrArg MessageOp.id (List.mem_singleton.mp new)) same
        rw [apart op.id same] at found
        have spared : ∀ seq, .delete op.id seq ∉ ops := fun seq buried =>
          unburied seq (List.mem_append_left _ buried)
        have there := listed.listed op kept file before spared found listsFile
        have here : file ∉ row.json.attachments := by
          intro also
          obtain ⟨stored, foundStored, source⟩ := collapsed.stored op before
          cases found.symm.trans foundStored
          cases source with
          | full from' sameId stored =>
              rw [stored] at listsFile
              exact same (sameId.symm.trans (unshared.apart _ _ _ _ file
                (List.mem_append_left _ from') member listsFile also))
          | bare _ _ _ nothing =>
              rw [nothing] at listsFile
              cases listsFile
        rw [FileTables.get?_indexMessage, if_neg here, there]
        exact Option.filter_eq_some_iff.mpr ⟨rfl, decide_eq_true same⟩

theorem delete (listed : Listed start tables messages channel ops) {id : MessageId}
    {seq : Int} (unshared : Unshared start (ops ++ [.delete id seq])) :
    Listed start (tables.dropMessage id) (MessageTable.bury messages id channel seq) channel
      (ops ++ [.delete id seq]) := by
  have apart : ∀ other, other ≠ id →
      (MessageTable.unquoted (MessageTable.bury messages id channel seq)).get? other =
        (MessageTable.unquoted messages).get? other := by
    intro other different
    rw [MessageTable.get?_unquoted_bury]
    exact if_neg different
  refine ⟨fun file entry found => ?_, fun file entry found => ?_,
    fun op kept file there unburied found listsFile => ?_⟩
  · rw [FileTables.get?_dropMessage, Option.filter_eq_some_iff, decide_eq_true_eq] at found
    rcases listed.origin file entry found.1 with old | ⟨⟨op, before, same⟩, rest⟩
    · exact Or.inl old
    · right
      rw [apart entry.messageId found.2]
      exact ⟨⟨op, List.mem_append_left _ before, same⟩, rest⟩
  · rw [FileTables.get?_dropMessage, listed.kept file entry found]
    have other := unshared.unknown file entry found (.delete id seq) (by simp)
    exact Option.filter_eq_some_iff.mpr ⟨rfl, decide_eq_true fun same => other same.symm⟩
  · have different : op.id ≠ id := by
      intro same
      apply unburied seq
      rw [same]
      simp
    have before : op ∈ ops := by
      rcases List.mem_append.mp there with before | new
      · exact before
      · exact absurd (congrArg MessageOp.id (List.mem_singleton.mp new)) different
    rw [apart op.id different] at found
    have spared : ∀ seq, .delete op.id seq ∉ ops := fun seq buried =>
      unburied seq (List.mem_append_left _ buried)
    rw [FileTables.get?_dropMessage, listed.listed op kept file before spared found listsFile]
    exact Option.filter_eq_some_iff.mpr ⟨rfl, decide_eq_true different⟩

end Listed

/-! ### A whole list of operations -/

/-- What the server sends of a message: one JSON for each number, and for a live delete
its tombstone, which lists no file and is never taken back. -/
structure Consistent (ops : List MessageOp) : Prop where
  one : ∀ history row history' other, .message history row ∈ ops →
    .message history' other ∈ ops → row.id = other.id → row.seq = other.seq →
    row.json = other.json ∧ row.createdAt = other.createdAt
  buried : ∀ id seq, .delete id seq ∈ ops → ∃ history row, .message history row ∈ ops ∧
    row.id = id ∧ seq ≤ row.seq ∧ row.json.deletedAt = true
  above : ∀ id seq, .delete id seq ∈ ops → ∀ history row, .message history row ∈ ops →
    row.id = id → seq < row.seq → row.json.deletedAt = true
  tombstone : ∀ history row, .message history row ∈ ops → row.json.deletedAt = true →
    row.json.attachments = []

variable {start : MessageTable} {tables : FileTables} {channel : ChannelId}
variable {ops others : List MessageOp}

theorem run_collapsed (unstored : Unstored start channel ops) (unshared : Unshared tables ops) :
    Collapsed start (ops.foldl (MessageOp.run channel) (start, tables)).1 channel ops ∧
      Listed tables (ops.foldl (MessageOp.run channel) (start, tables)).2
        (ops.foldl (MessageOp.run channel) (start, tables)).1 channel ops := by
  induction ops using List.reverseRecOn with
  | nil =>
      refine ⟨⟨fun _ _ => rfl, fun _ member => ?_⟩, fun _ _ found => Or.inl found,
        fun _ _ found => found, fun _ _ _ member => ?_⟩
      · cases member
      · cases member
  | append_singleton ops op ih =>
      obtain ⟨collapsed, listed⟩ := ih unstored.front unshared.front
      rw [List.foldl_append, List.foldl_cons, List.foldl_nil]
      cases op with
      | message history row =>
          exact ⟨collapsed.message unstored, listed.message unstored unshared collapsed⟩
      | delete id seq => exact ⟨collapsed.delete unstored, listed.delete unshared⟩

/-- With its tombstone among the operations, a live delete leaves no trace. -/
theorem Source.newest (consistent : Consistent ops) {id : MessageId} {kept : CachedMessage}
    (source : Source ops channel id kept) : ∃ history row, .message history row ∈ ops ∧
      row.id = id ∧ kept = (CachedMessage.ofRow row).unquoted ∧
      ∀ op ∈ ops, op.id = id → op.seq ≤ row.seq := by
  cases source with
  | full member same stored top => exact ⟨_, _, member, same, stored, top⟩
  | bare member _ _ _ _ above =>
      obtain ⟨history, row, there, same, bound, -⟩ := consistent.buried id kept.seq member
      exact absurd bound (not_le.mpr (above history row there same))

/-- Where a live delete came, no file is listed. -/
theorem Source.unlisted (consistent : Consistent ops) {id : MessageId} {kept : CachedMessage}
    (source : Source ops channel id kept) {seq : Int} (buried : .delete id seq ∈ ops) :
    kept.json.attachments = [] := by
  obtain ⟨history, row, member, same, rfl, top⟩ := source.newest consistent
  obtain ⟨history', tombstone, there, sameId, bound, deleted⟩ := consistent.buried id seq buried
  have reaches : tombstone.seq ≤ row.seq := top _ there sameId
  apply consistent.tombstone history row member
  rcases lt_or_eq_of_le (le_trans bound reaches) with below | equal
  · exact consistent.above id seq buried history row member same below
  · have sameSeq : row.seq = tombstone.seq := le_antisymm (equal ▸ bound) reaches
    rw [(consistent.one _ _ _ _ member there (same.trans sameId.symm) sameSeq).1]
    exact deleted

/-- The index is what the stored rows list. -/
theorem Listed.exact (consistent : Consistent ops) {messages : MessageTable}
    {index : FileTables} (collapsed : Collapsed start messages channel ops)
    (listed : Listed tables index messages channel ops) (file : FileId) (entry : FileEntry) :
    index.messageFiles.get? file = some entry ↔
      tables.messageFiles.get? file = some entry ∨
        (∃ op ∈ ops, op.id = entry.messageId) ∧ entry.channelId = channel ∧
          ∃ kept, (MessageTable.unquoted messages).get? entry.messageId = some kept ∧
            file ∈ kept.json.attachments := by
  constructor
  · exact listed.origin file entry
  · rintro (old | ⟨⟨op, member, same⟩, here, kept, found, lists⟩)
    · exact listed.kept file entry old
    · obtain ⟨message, place⟩ := entry
      obtain rfl : op.id = message := same
      obtain rfl : place = channel := here
      refine listed.listed op kept file member (fun seq buried => ?_) found lists
      obtain ⟨stored, there, source⟩ := collapsed.stored op member
      cases found.symm.trans there
      rw [source.unlisted consistent buried] at lists
      cases lists

/-- The same rows and deletes, as often as may be, from whichever pages. -/
structure Alike (ops others : List MessageOp) : Prop where
  rows : ∀ row, (∃ history, .message history row ∈ ops) ↔ ∃ history, .message history row ∈ others
  deletes : ∀ id seq, .delete id seq ∈ ops ↔ .delete id seq ∈ others

namespace Alike

theorem symm (alike : Alike ops others) : Alike others ops where
  rows row := (alike.rows row).symm
  deletes id seq := (alike.deletes id seq).symm

theorem row (alike : Alike ops others) {history : Bool} {row : MessageRow}
    (member : .message history row ∈ ops) : ∃ history, .message history row ∈ others :=
  (alike.rows row).mp ⟨history, member⟩

theorem op (alike : Alike ops others) {op : MessageOp} (member : op ∈ ops) :
    ∃ other ∈ others, other.id = op.id ∧ other.seq = op.seq := by
  cases op with
  | message history row =>
      obtain ⟨history', there⟩ := alike.row member
      exact ⟨_, there, rfl, rfl⟩
  | delete id seq => exact ⟨_, (alike.deletes id seq).mp member, rfl, rfl⟩

theorem known (alike : Alike ops others) (id : MessageId) :
    (∃ op ∈ ops, op.id = id) ↔ ∃ op ∈ others, op.id = id := by
  constructor
  · rintro ⟨op, member, rfl⟩
    obtain ⟨other, there, same, -⟩ := alike.op member
    exact ⟨other, there, same⟩
  · rintro ⟨op, member, rfl⟩
    obtain ⟨other, there, same, -⟩ := alike.symm.op member
    exact ⟨other, there, same⟩

end Alike

theorem Consistent.congr (consistent : Consistent ops) (alike : Alike others ops) :
    Consistent others where
  one history row history' other here there := by
    obtain ⟨_, here⟩ := alike.row here
    obtain ⟨_, there⟩ := alike.row there
    exact consistent.one _ row _ other here there
  buried id seq member := by
    obtain ⟨_, row, there, rest⟩ := consistent.buried id seq ((alike.deletes id seq).mp member)
    obtain ⟨history, back⟩ := alike.symm.row there
    exact ⟨history, row, back, rest⟩
  above id seq member history row there := by
    obtain ⟨_, there⟩ := alike.row there
    exact consistent.above id seq ((alike.deletes id seq).mp member) _ row there
  tombstone history row member := by
    obtain ⟨_, there⟩ := alike.row member
    exact consistent.tombstone _ row there

/-- The newest rows of a message are all alike. -/
theorem Source.unique (consistent : Consistent ops) (unstored : Unstored start channel ops)
    (alike : Alike ops others) {id : MessageId} {kept kept' : CachedMessage}
    (source : Source ops channel id kept) (source' : Source others channel id kept') :
    kept = kept' := by
  obtain ⟨history, row, member, here, rfl, top⟩ := source.newest consistent
  obtain ⟨history', other, there, also, rfl, top'⟩ :=
    source'.newest (consistent.congr alike.symm)
  obtain ⟨_, forth⟩ := alike.row member
  obtain ⟨_, back⟩ := alike.symm.row there
  have sameSeq : row.seq = other.seq := le_antisymm (top' _ forth here) (top _ back also)
  obtain ⟨json, createdAt⟩ :=
    consistent.one _ _ _ _ member back (here.trans also.symm) sameSeq
  have sameChannel : row.channelId = other.channelId :=
    (unstored.here _ _ member).trans (unstored.here _ _ back).symm
  simp only [CachedMessage.ofRow, CachedMessage.unquoted, json, createdAt, sameSeq, sameChannel]

/-- The operations alone, not their order or their number, make the messages. -/
theorem Collapsed.congr (consistent : Consistent ops) (unstored : Unstored start channel ops)
    (alike : Alike ops others) {messages messages' : MessageTable}
    (collapsed : Collapsed start messages channel ops)
    (collapsed' : Collapsed start messages' channel others) (id : MessageId) :
    (MessageTable.unquoted messages).get? id = (MessageTable.unquoted messages').get? id := by
  by_cases known : ∃ op ∈ ops, op.id = id
  · have known' := (alike.known id).mp known
    obtain ⟨op, member, rfl⟩ := known
    obtain ⟨other, there, same⟩ := known'
    obtain ⟨kept, found, source⟩ := collapsed.stored op member
    obtain ⟨kept', found', source'⟩ := collapsed'.stored other there
    rw [same] at found' source'
    rw [found, found', source.unique consistent unstored alike source']
  · have known' := fun there => known ((alike.known id).mpr there)
    rw [collapsed.others id fun op member here => known ⟨op, member, here⟩,
      collapsed'.others id fun op member here => known' ⟨op, member, here⟩]

theorem Listed.congr (consistent : Consistent ops) (alike : Alike ops others)
    {messages messages' : MessageTable} {index index' : FileTables}
    (collapsed : Collapsed start messages channel ops)
    (collapsed' : Collapsed start messages' channel others)
    (listed : Listed tables index messages channel ops)
    (listed' : Listed tables index' messages' channel others)
    (rows : ∀ id, (MessageTable.unquoted messages).get? id =
      (MessageTable.unquoted messages').get? id) (file : FileId) :
    index.messageFiles.get? file = index'.messageFiles.get? file := by
  apply Option.ext
  intro entry
  rw [listed.exact consistent collapsed, listed'.exact (consistent.congr alike.symm) collapsed',
    rows entry.messageId, alike.known entry.messageId]

end Brook
