import Lqxp.Websocket.Protocol.Lemmas.Silence

/-!
This module contains what is left to an account that is banned from a room or may not speak there: a banned moderator
can still delete the messages of others, and the account can put new content into its own.
-/

namespace Lqxp

def othersMessages (userId : String) (messages : List ChatMessageRecord) : List ChatMessageRecord :=
  messages.filter (·.userId ≠ userId)

/--
In every state that a server reaches, a request of a banned account that satisfies `cond` leaves the
messages of others in the room alone, if its steps find the outside world as `adm` says.
-/
def BannedLeaveOthersAlone (cond : AppState → String → String → Op → Json → Prop)
    (adm : Env → Prop) : Prop :=
  ∀ (p q : ServerPool) (tr : List ServerEvent) roomId room userId sid player op d s' a,
    Fresh p → Prog.Run server (fun _ _ s l _ => freshId s l) p tr q →
    q.state.database.lookup roomId = some room → room.bans userId →
    q.state.players.lookup sid = some player → player.userId = userId →
    op ∈ [Op.send, .edit, .react, .delete] → cond q.state roomId userId op d →
    Prog.Complete Eq (fun e s l => adm e ∧ freshId s l) (op.handler sid d) q.state a s' →
    othersMessages userId (s'.messages roomId) = othersMessages userId (q.state.messages roomId)

/--
The request does not ask to delete a message in the room that the role of the account gives it power
over.
-/
def NoPowerOver (s : AppState) (roomId userId : String) (op : Op) (d : Json) : Prop :=
  op = .delete → ∀ message ∈ othersMessages userId (s.messages roomId),
    trimmedStr? d "messageId" = some message.messageId → message.deleted = false →
    ∀ room, s.database.lookup roomId = some room → roleCanDelete room userId message.userId = false

theorem canSpeak_of_bans {room : RoomRecord} {userId : String} (h : room.bans userId) (now : Nat)
    : canSpeak room userId now = false := by
  simp only [RoomRecord.bans, Bool.and_eq_true] at h
  rw [canSpeak, if_pos h.2]

theorem othersMessages_modifyMessage {messageId userId : String}
    {f : ChatMessageRecord → ChatMessageRecord} {messages : List ChatMessageRecord}
    {message : ChatMessageRecord} (hfound : findMessage messageId messages = some message)
    (huser : message.userId = userId) (hf : (f message).userId = message.userId)
    : othersMessages userId (modifyMessage messageId f messages) = othersMessages userId messages :=
  filter_modifyMessage hfound (by simp [huser]) (by simp [hf, huser])

theorem bannedLeaveOthersAlone (p q : ServerPool) (tr : List ServerEvent) (roomId : String) (room : RoomRecord)
    (userId sid : String) (player : PlayerSession) (op : Op) (d : Json) (s' : AppState) (a : Bool) (hp : Fresh p)
    (hrun : Prog.Run server (fun _ _ s l _ => freshId s l) p tr q)
    (hroom : q.state.database.lookup roomId = some room) (hbans : room.bans userId)
    (hplayer : q.state.players.lookup sid = some player) (huser : player.userId = userId)
    (hop : op ∈ [Op.send, .edit, .react, .delete]) (hcond : NoPowerOver q.state roomId userId op d)
    (run : Prog.Complete Eq (fun e s l => e.dbFails = false ∧ freshId s l) (op.handler sid d) q.state a s')
    : othersMessages userId (s'.messages roomId) = othersMessages userId (q.state.messages roomId) := by
  have hmessages : op.onMessages := by
    simp only [List.mem_cons, List.not_mem_nil, or_false] at hop
    rcases hop with rfl | rfl | rfl | rfl <;> rfl
  have hkind : room.kind = .community := by simp_all [RoomRecord.bans]
  have run' : Prog.Complete Eq (fun e s l => silencedStep userId room e s l) (op.handler sid d)
      q.state a s' := by
    refine run.mono fun e s l hadm => ?_
    simp [silencedStep, hadm.1, hadm.2, canSpeak_of_bans hbans]
  refine Silenced.messages_of_complete
    (fun messages => othersMessages userId messages = othersMessages userId (q.state.messages roomId))
    hmessages (.start (authored_of_run hp hrun) hplayer huser hroom) ?_ run' rfl
  intro g e s change hsilenced hsame hreads hmay
  rcases hsilenced.change hkind hmessages hreads hmay with
    ⟨messageId, deletedBy, byModerator, message, rfl, hdelete, hid, hfound, hdeleted, hpower⟩
    | ⟨messageId, text, profile, encrypted, editedAt, message, rfl, -, -, hfound, -, -, hown⟩
  . have hmem := (findMessage_eq_some hfound).1
    have hown : message.userId = userId := by
      by_contra hother
      have hmem' : message ∈ othersMessages userId (q.state.messages roomId) := by
        rw [← hsame]
        exact List.mem_filter.2 ⟨hmem, by simpa using hother⟩
      have hnone := hcond hdelete message hmem' (by rw [hid, (findMessage_eq_some hfound).2])
        hdeleted room hroom
      rcases hpower with hown | hpower
      . exact hother hown
      . rw [hnone] at hpower
        contradiction
    rw [← hsame]
    exact othersMessages_modifyMessage hfound hown rfl
  . rw [← hsame]
    exact othersMessages_modifyMessage hfound hown rfl

section Leftover

/--
A community room with a banned moderator m, and tokens for m, for the owner and for another account.
-/
def leftoverServer : ServerPool where
  state :=
    { database := (∅ : AssocMap String RoomRecord).insert "community"
        { roomId := "community", kind := .community, ownerId := some "o"
          roles := ((∅ : AssocMap String RoomRole).insert "o" .administrator).insert "m" .moderator
          banned := (∅ : AssocMap String String).insert "m" "mona" }
      accounts :=
        { users := (((∅ : AssocMap String StoredUser).insert "x"
            { id := "x", username := "xaver" }).insert "o" { id := "o", username := "olga" }).insert "m"
            { id := "m", username := "mona" }
          sessions := (((∅ : AssocMap String SessionRow).insert "tokenX"
            { userId := "x", expiresAt := 10 }).insert "tokenO" { userId := "o", expiresAt := 10 }).insert "tokenM"
            { userId := "m", expiresAt := 10 } } }
  threads := []

/--
The other account and the owner write a message each, and then the banned one identifies itself.
-/
def leftover : List (Prog.Cmd Request Env) :=
  Prog.Cmd.serve (.connect "a") 0 1 .calm
    ++ Prog.Cmd.serve (.message "a" .identify (.obj [("token", .str "tokenX")])) 1 5 .calm
    ++ Prog.Cmd.serve (.message "a" .join (.obj [("gameId", .str "community")])) 2 16 .calm
    ++ Prog.Cmd.serve (.message "a" .send
      (.obj [("gameId", .str "community"), ("text", .str "hello")])) 3 9 { randomId := "1" }
    ++ Prog.Cmd.serve (.connect "c") 4 1 .calm
    ++ Prog.Cmd.serve (.message "c" .identify (.obj [("token", .str "tokenO")])) 5 5 .calm
    ++ Prog.Cmd.serve (.message "c" .join (.obj [("gameId", .str "community")])) 6 16 .calm
    ++ Prog.Cmd.serve (.message "c" .send
      (.obj [("gameId", .str "community"), ("text", .str "welcome")])) 7 9 { randomId := "2" }
    ++ Prog.Cmd.serve (.connect "b") 8 1 .calm
    ++ Prog.Cmd.serve (.message "b" .identify (.obj [("token", .str "tokenM")])) 9 5 .calm

theorem fresh_leftoverServer : Fresh leftoverServer where
  threads := rfl
  players := rfl
  roomMessages := rfl
  accounts key user huser := by
    simp only [leftoverServer, AssocMap.lookup_insert] at huser
    split at huser
    . obtain rfl := Option.some.inj huser
      simp
    split at huser
    . obtain rfl := Option.some.inj huser
      simp
    split at huser
    . obtain rfl := Option.some.inj huser
      simp
    . contradiction

theorem exists_leftover_run (op : Op) (d : Json) (n : Nat) (test : AppState → AppState → Bool)
    (h : (Prog.Pool.exec server (fun _ _ s l _ => freshId s l) leftover leftoverServer).any
      (fun res =>
        (res.2.state.database.lookup "community").any (·.bans "m")
          && (res.2.state.players.lookup "b").any (·.userId = "m")
          && (Prog.exec (fun e s l => !e.dbFails && freshId s l) (List.replicate n .calm)
            (op.handler "b" d) res.2.state).any fun end_ => test res.2.state end_.2) = true)
    : ∃ tr q room player a s',
        Prog.Run server (fun _ _ s l _ => freshId s l) leftoverServer tr q
          ∧ q.state.database.lookup "community" = some room ∧ room.bans "m"
          ∧ q.state.players.lookup "b" = some player ∧ player.userId = "m"
          ∧ Prog.Complete Eq (fun e s l => e.dbFails = false ∧ freshId s l) (op.handler "b" d) q.state
            a s'
          ∧ test q.state s' = true := by
  obtain ⟨tr, q, hrun, htest⟩ := Prog.Run.exists_of_exec server (fun _ _ s l _ => freshId s l)
    leftover leftoverServer (fun _ q =>
      (q.state.database.lookup "community").any (·.bans "m")
        && (q.state.players.lookup "b").any (·.userId = "m")
        && (Prog.exec (fun e s l => !e.dbFails && freshId s l) (List.replicate n .calm)
          (op.handler "b" d) q.state).any fun end_ => test q.state end_.2) h
  simp only [Bool.and_eq_true, Option.any_eq_true, decide_eq_true_eq] at htest
  obtain ⟨⟨⟨room, hroom, hbans⟩, player, hplayer, huser⟩, ⟨a, s'⟩, hexec, htest⟩ := htest
  refine ⟨tr, q, room, player, a, s', hrun, hroom, hbans, hplayer, huser, ?_, htest⟩
  exact (Prog.Complete.of_exec hexec).mono fun e s l hadm => by simpa using hadm

/--
The banned account asks for the message of the owner to be deleted, over which it has no power.
-/
theorem bannedLeaveOthersAlone_deleteOwners
    : ∃ s s' a,
        Prog.Complete Eq (fun e s l => e.dbFails = false ∧ freshId s l)
            (Op.delete.handler "b" (.obj [("messageId", .str "2")])) s a s'
          ∧ (s.messages "community").map (·.messageId) = ["1", "2"]
          ∧ othersMessages "m" (s'.messages "community") = othersMessages "m" (s.messages "community")
    := by
  obtain ⟨tr, q, room, player, a, s', hrun, hroom, hbans, hplayer, huser, run, htest⟩ :=
    exists_leftover_run .delete (.obj [("messageId", .str "2")]) 5
      (fun s _ => (s.messages "community").map (·.messageId) = ["1", "2"]
        && (othersMessages "m" (s.messages "community")).all (fun message => message.messageId ≠ "2" || message.userId = "o")
        && (s.database.lookup "community").all fun room => !roleCanDelete room "m" "o") (by decide +kernel)
  simp only [Bool.and_eq_true, decide_eq_true_eq, List.all_eq_true, Bool.or_eq_true] at htest
  obtain ⟨⟨hmessages, howners⟩, hroles⟩ := htest
  have hcond : NoPowerOver q.state "community" "m" .delete (.obj [("messageId", .str "2")]) := by
    intro _ message hmem hid _ room' hroom'
    have hid : "2" = message.messageId := Option.some.inj hid
    obtain rfl : room' = room := Option.some.inj (hroom'.symm.trans hroom)
    rw [(howners message hmem).resolve_left (absurd hid.symm)]
    rw [hroom] at hroles
    exact Bool.eq_false_of_not_eq_true' hroles
  exact ⟨q.state, s', a, run, hmessages,
    bannedLeaveOthersAlone _ q tr "community" room "m" "b" player .delete _ s' a fresh_leftoverServer
      hrun hroom hbans hplayer huser (by simp) hcond run⟩

/--
It can delete the message of the other account.
-/
theorem not_bannedLeaveOthersAlone
    : ¬ BannedLeaveOthersAlone (fun _ _ _ _ _ => True) (·.dbFails = false) := by
  intro h
  obtain ⟨tr, q, room, player, a, s', hrun, hroom, hbans, hplayer, huser, run, htest⟩ :=
    exists_leftover_run .delete (.obj [("messageId", .str "1")]) 6
      (fun s s' => (othersMessages "m" (s.messages "community")).map (·.deleted) = [false, false]
        && (othersMessages "m" (s'.messages "community")).map (·.deleted) = [true, false])
      (by decide +kernel)
  have hsame := h _ q tr "community" room "m" "b" player .delete _ s' a fresh_leftoverServer hrun
    hroom hbans hplayer huser (by simp) trivial run
  simp only [hsame, Bool.and_eq_true, decide_eq_true_eq] at htest
  obtain ⟨hkept, hdeleted⟩ := htest
  rw [hkept] at hdeleted
  simp at hdeleted

end Leftover

end Lqxp

namespace Lqxp

def ChatMessageRecord.content (message : ChatMessageRecord)
    : String × String × Option EncryptedPayload × List MessageReaction :=
  (message.messageId, message.text, message.encrypted, message.reactions)

/--
In every state that a server reaches, a request that satisfies `cond`, of an account that may not speak
in a room at the time, neither adds a message to the room nor changes what one shows, if its steps find
the outside world as `adm` says.
-/
def SilencedStaySilent (cond : AppState → String → String → Op → Json → Prop)
    (adm : Env → Prop) : Prop :=
  ∀ (p q : ServerPool) (tr : List ServerEvent) roomId room userId sid player op d s' a,
    Fresh p → Prog.Run server (fun _ _ s l _ => freshId s l) p tr q →
    q.state.database.lookup roomId = some room → room.kind = .community →
    q.state.players.lookup sid = some player → player.userId = userId → roomId ∈ player.rooms →
    op ∈ [Op.send, .react, .edit] → cond q.state roomId userId op d →
    Prog.Complete Eq (fun e s l => adm e ∧ canSpeak room userId e.now = false ∧ freshId s l)
      (op.handler sid d) q.state a s' →
    (s'.messages roomId).map (·.content) = (q.state.messages roomId).map (·.content)

/--
The request does not edit a message that the account has written in the room.
-/
def NoOwnEdit (s : AppState) (roomId userId : String) (op : Op) (d : Json) : Prop :=
  op = .edit → ∀ message ∈ s.messages roomId,
    trimmedStr? d "messageId" = some message.messageId → message.deleted = false →
    message.system = false → message.userId ≠ userId

theorem silencedStaySilent (p q : ServerPool) (tr : List ServerEvent) (roomId : String) (room : RoomRecord)
    (userId sid : String) (player : PlayerSession) (op : Op) (d : Json) (s' : AppState) (a : Bool) (hp : Fresh p)
    (hrun : Prog.Run server (fun _ _ s l _ => freshId s l) p tr q)
    (hroom : q.state.database.lookup roomId = some room) (hkind : room.kind = .community)
    (hplayer : q.state.players.lookup sid = some player) (huser : player.userId = userId)
    (_hin : roomId ∈ player.rooms) (hop : op ∈ [Op.send, .react, .edit])
    (hcond : NoOwnEdit q.state roomId userId op d)
    (run : Prog.Complete Eq (fun e s l => e.dbFails = false ∧ canSpeak room userId e.now = false ∧ freshId s l)
      (op.handler sid d) q.state a s')
    : (s'.messages roomId).map (·.content) = (q.state.messages roomId).map (·.content) := by
  have hmessages : op.onMessages := by
    simp only [List.mem_cons, List.not_mem_nil, or_false] at hop
    rcases hop with rfl | rfl | rfl <;> rfl
  have run' : Prog.Complete Eq (fun e s l => silencedStep userId room e s l) (op.handler sid d)
      q.state a s' := by
    refine run.mono fun e s l hadm => ?_
    simp [silencedStep, hadm.1, hadm.2.1, hadm.2.2]
  rw [Silenced.messages_of_complete (fun messages => messages = q.state.messages roomId)
    hmessages (.start (authored_of_run hp hrun) hplayer huser hroom) ?_ run' rfl]
  intro g e s change hsilenced hsame hreads hmay
  exfalso
  rcases hsilenced.change hkind hmessages hreads hmay with
    ⟨messageId, deletedBy, byModerator, message, rfl, rfl, -⟩
    | ⟨messageId, text, profile, encrypted, editedAt, message, rfl, hedit, hid, hfound, hdeleted,
      hsystem, hown⟩
  . simp at hop
  . rw [hsame] at hfound
    obtain ⟨hmem, rfl⟩ := findMessage_eq_some hfound
    exact hcond hedit message hmem hid hdeleted hsystem hown

section Lock

/--
A community room, and a token for its owner and one for another account.
-/
def lockableServer : ServerPool where
  state :=
    { database := (∅ : AssocMap String RoomRecord).insert "community"
        { roomId := "community", kind := .community, ownerId := some "o"
          roles := (∅ : AssocMap String RoomRole).insert "o" .administrator }
      accounts :=
        { users := ((∅ : AssocMap String StoredUser).insert "x"
            { id := "x", username := "xaver" }).insert "o" { id := "o", username := "olga" }
          sessions := ((∅ : AssocMap String SessionRow).insert "tokenX"
            { userId := "x", expiresAt := 10 }).insert "tokenO" { userId := "o", expiresAt := 10 } } }
  threads := []

def entering (sid token : String) (i : Nat) : List (Prog.Cmd Request Env) :=
  Prog.Cmd.serve (.connect sid) i 1 .calm
    ++ Prog.Cmd.serve (.message sid .identify (.obj [("token", .str token)])) (i + 1) 5 .calm
    ++ Prog.Cmd.serve (.message sid .join (.obj [("gameId", .str "community")])) (i + 2) 16 .calm

/--
A member writes a message, and then the owner locks the chat.
-/
def locking : List (Prog.Cmd Request Env) :=
  entering "a" "tokenX" 0
    ++ Prog.Cmd.serve (.message "a" .send
      (.obj [("gameId", .str "community"), ("text", .str "hello")])) 3 9 { randomId := "1" }
    ++ entering "b" "tokenO" 4
    ++ Prog.Cmd.serve (.message "b" .chatLock
      (.obj [("gameId", .str "community"), ("locked", .bool true)])) 7 8 .calm

theorem fresh_lockableServer : Fresh lockableServer where
  threads := rfl
  players := rfl
  roomMessages := rfl
  accounts key user huser := by
    simp only [lockableServer, AssocMap.lookup_insert] at huser
    split at huser
    . obtain rfl := Option.some.inj huser
      simp
    . split at huser
      . obtain rfl := Option.some.inj huser
        simp
      . contradiction

theorem exists_locked_run (op : Op) (d : Json) (n : Nat) (test : AppState → AppState → Bool)
    (h : (Prog.Pool.exec server (fun _ _ s l _ => freshId s l) locking lockableServer).any
      (fun res =>
        (res.2.state.database.lookup "community").any (fun room => room.kind = .community
          && (Prog.exec (fun e s l => !e.dbFails && !canSpeak room "x" e.now && freshId s l)
            (List.replicate n .calm) (op.handler "a" d) res.2.state).any
              fun end_ => test res.2.state end_.2)
          && (res.2.state.players.lookup "a").any
            (fun player => player.userId = "x" && player.rooms.contains "community")) = true)
    : ∃ tr q room player a s',
        Prog.Run server (fun _ _ s l _ => freshId s l) lockableServer tr q
          ∧ q.state.database.lookup "community" = some room ∧ room.kind = .community
          ∧ q.state.players.lookup "a" = some player ∧ player.userId = "x"
          ∧ "community" ∈ player.rooms
          ∧ Prog.Complete Eq
            (fun e s l => e.dbFails = false ∧ canSpeak room "x" e.now = false ∧ freshId s l)
            (op.handler "a" d) q.state a s'
          ∧ test q.state s' = true := by
  obtain ⟨tr, q, hrun, htest⟩ := Prog.Run.exists_of_exec server (fun _ _ s l _ => freshId s l)
    locking lockableServer (fun _ q =>
      (q.state.database.lookup "community").any (fun room => room.kind = .community
        && (Prog.exec (fun e s l => !e.dbFails && !canSpeak room "x" e.now && freshId s l)
          (List.replicate n .calm) (op.handler "a" d) q.state).any fun end_ => test q.state end_.2)
      && (q.state.players.lookup "a").any
        (fun player => player.userId = "x" && player.rooms.contains "community")) h
  simp only [Bool.and_eq_true, Option.any_eq_true, decide_eq_true_eq] at htest
  obtain ⟨⟨room, hroom, hkind, ⟨a, s'⟩, hexec, htest⟩, player, hplayer, huser, hinside⟩ := htest
  refine ⟨tr, q, room, player, a, s', hrun, hroom, hkind, hplayer, huser, ?_, ?_, htest⟩
  . simpa using hinside
  . exact (Prog.Complete.of_exec hexec).mono fun e s l hadm => by simpa [and_assoc] using hadm

/--
The member cannot write another message.
-/
theorem silencedStaySilent_send
    : ∃ s s' a,
        Prog.Complete Eq (fun e s l => e.dbFails = false ∧ freshId s l)
            (Op.send.handler "a" (.obj [("gameId", .str "community"), ("text", .str "hi")])) s a s'
          ∧ (s.messages "community").map (·.text) = ["hello"]
          ∧ (s'.messages "community").map (·.content) = (s.messages "community").map (·.content)
    := by
  obtain ⟨tr, q, room, player, a, s', hrun, hroom, hkind, hplayer, huser, hinside, run, htest⟩ :=
    exists_locked_run .send (.obj [("gameId", .str "community"), ("text", .str "hi")]) 4
      (fun s _ => (s.messages "community").map (·.text) = ["hello"]) (by decide +kernel)
  refine ⟨q.state, s', a, run.mono fun e s l hadm => ⟨hadm.1, hadm.2.2⟩, by simpa using htest, ?_⟩
  exact silencedStaySilent _ q tr "community" room "x" "a" player .send _ s' a fresh_lockableServer
    hrun hroom hkind hplayer huser hinside (by simp) (by simp [NoOwnEdit]) run

/--
It can rewrite the one it has written.
-/
theorem not_silencedStaySilent
    : ¬ SilencedStaySilent (fun _ _ _ _ _ => True) (·.dbFails = false) := by
  intro h
  obtain ⟨tr, q, room, player, a, s', hrun, hroom, hkind, hplayer, huser, hinside, run, htest⟩ :=
    exists_locked_run .edit
      (.obj [("gameId", .str "community"), ("messageId", .str "1"), ("text", .str "again")]) 6
      (fun s s' => (s.messages "community").map (·.content.2.1) = ["hello"]
        && (s'.messages "community").map (·.content.2.1) = ["again"])
      (by decide +kernel)
  have hsame := h _ q tr "community" room "x" "a" player .edit _ s' a fresh_lockableServer hrun hroom
    hkind hplayer huser hinside (by simp) trivial run
  have htexts := congrArg (List.map (fun content => content.2.1)) hsame
  simp only [Bool.and_eq_true, decide_eq_true_eq] at htest
  obtain ⟨hbefore, hafter⟩ := htest
  simp only [List.map_map, Function.comp_def, hbefore, hafter] at htexts
  simp at htexts

end Lock

end Lqxp
