import Lqxp.Websocket.Protocol.Lemmas.Buffers
import Lqxp.Websocket.Protocol.Lemmas.Members

/-!
This module contains the invariants of messages and their authors: every buffered message was written by
an account, and no two rooms have a message with the same id.
-/

namespace Lqxp

def freshId (s : AppState) (l : Label) : Bool :=
  match l with
  | .changed _ (.stored message) =>
    s.roomMessages.values.all fun messages => !hasMessage message.messageId messages
  | _ => true

structure Authored (s : AppState) : Prop where
  accounts (key : String) (user : StoredUser)
    : s.accounts.users.lookup key = some user → user.id ≠ ""
  sessions (sid : String) (player : PlayerSession)
    : s.players.lookup sid = some player → player.username ≠ "" → player.userId ≠ ""
  messages (roomId : String) : ∀ message ∈ s.messages roomId, message.userId ≠ ""
  unique (roomId roomId' : String)
    : ∀ message ∈ s.messages roomId, ∀ message' ∈ s.messages roomId',
        message.messageId = message'.messageId → roomId = roomId'

structure Memory.Named (g : Memory) : Prop where
  account (userId : String) : g.account = some userId → userId ≠ ""
  actor (userId username : String)
    : g.actor = some (userId, username) → username ≠ "" → userId ≠ ""

variable {g : Memory} {e : Env} {s s' : AppState} {l : Label}

theorem Transition.users (h : Transition g e s l s') {key : String} {user' : StoredUser}
    (huser' : s'.accounts.users.lookup key = some user')
    : ∃ user, s.accounts.users.lookup key = some user ∧ user.id = user'.id
        ∧ user.disabled = user'.disabled ∧ user.banned = user'.banned := by
  have hkeeps (hkeeps : Keeps s s')
      : ∃ user, s.accounts.users.lookup key = some user ∧ user.id = user'.id
          ∧ user.disabled = user'.disabled ∧ user.banned = user'.banned := by
    have husers := hkeeps.users key
    rw [huser'] at husers
    obtain ⟨user, huser, heq⟩ := Option.map_eq_some_iff.1 husers.symm
    simp only [Prod.mk.injEq] at heq
    exact ⟨user, huser, heq⟩
  have hsame (heq : s'.accounts = s.accounts)
      : ∃ user, s.accounts.users.lookup key = some user ∧ user.id = user'.id
          ∧ user.disabled = user'.disabled ∧ user.banned = user'.banned :=
    ⟨user', heq ▸ huser', rfl, rfl, rfl⟩
  cases l with
  | quiet | broadcast | file => exact hkeeps h
  | actor => exact hkeeps h.1
  | clock | reply | token | account | target | located | read | wrote | created | erased | connected
  | joined | left | removed | emptied => exact hsame (by rw [h.1])
  | changed => exact hsame (by rw [h.1]; rfl)
  | disconnected => exact hsame (by rw [h])
  | bound =>
    obtain ⟨-, -, f, -, rfl⟩ := h
    exact hsame rfl

theorem messageId_ne_of_fresh {roomId : String} {stored message : ChatMessageRecord}
    (hfresh : freshId s (.changed roomId (.stored stored))) {roomId' : String}
    (hmem : message ∈ s.messages roomId') : message.messageId ≠ stored.messageId := by
  rw [freshId, List.all_eq_true] at hfresh
  cases hlookup : s.roomMessages.lookup roomId' with
  | none => simp [AppState.messages, hlookup] at hmem
  | some messages =>
    have hnot := hfresh messages (AssocMap.mem_values_of_lookup hlookup)
    simp only [hasMessage, Bool.not_eq_true', List.any_eq_false] at hnot
    rw [AppState.messages, hlookup, Option.getD_some] at hmem
    simpa using hnot message hmem

theorem named_step (h : Transition g e s l s') (hs : Authored s) (hg : g.Named)
    : (g.next l).Named := by
  cases l with
  | actor userId username =>
    obtain ⟨-, sid, player, -, hplayer, rfl, rfl⟩ := h
    refine ⟨hg.account, fun userId username hactor => ?_⟩
    obtain ⟨rfl, rfl⟩ := Prod.mk.inj (Option.some.inj hactor)
    exact hs.sessions sid player hplayer
  | token tokenHash userId => exact ⟨fun userId haccount => by simp [Memory.next] at haccount, hg.actor⟩
  | account userId =>
    obtain ⟨-, tokenHash, key, user, -, huser, rfl, -, -⟩ := h
    refine ⟨fun userId haccount => ?_, hg.actor⟩
    obtain rfl := Option.some.inj haccount
    exact hs.accounts key user huser
  | wrote roomId record =>
    simp only [Memory.next]
    split
    . exact ⟨hg.account, hg.actor⟩
    . exact ⟨hg.account, hg.actor⟩
  | _ => exact ⟨hg.account, hg.actor⟩

theorem Transition.origin (h : Transition g e s l s') {roomId : String}
    {message : ChatMessageRecord} (hmem : message ∈ s'.messages roomId)
    : (∃ old ∈ s.messages roomId, old.messageId = message.messageId ∧ old.userId = message.userId)
        ∨ l = .changed roomId (.stored message)
          ∧ g.actor = some (message.userId, message.username) ∧ message.username ≠ "" := by
  by_cases hchanges : l.changes = some roomId
  . cases l with
    | changed roomId' change =>
      obtain rfl : roomId' = roomId := by simpa [Label.changes] using hchanges
      rw [h.1, AppState.messages_change, if_pos rfl] at hmem
      rcases MessageChange.origin hmem with hold | rfl
      . exact .inl hold
      . obtain ⟨-, hactor, hname, -⟩ := h.2
        exact .inr ⟨rfl, hactor, hname⟩
    | emptied roomId' =>
      obtain rfl : roomId' = roomId := by simpa [Label.changes] using hchanges
      simp [h.messages_emptied] at hmem
    | _ => simp [Label.changes] at hchanges
  . rw [h.messages hchanges] at hmem
    exact .inl ⟨message, hmem, rfl, rfl⟩

theorem authored_step (h : Transition g e s l s') (hfresh : freshId s l) (hs : Authored s)
    (hg : g.Named) : Authored s' where
  accounts key user' huser' := by
    obtain ⟨user, huser, hid, -⟩ := h.users huser'
    rw [← hid]
    exact hs.accounts key user huser
  sessions sid player' hplayer' hname := by
    rcases h.session hplayer' with ⟨player, hplayer, -, huser, hname', -⟩ | ⟨-, rfl⟩ | ⟨rfl, -⟩
    . rw [← hname'] at hname
      rw [← huser]
      exact hs.sessions sid player hplayer hname
    . contradiction
    . exact hg.account player'.userId h.2.1
  messages roomId message hmem := by
    rcases h.origin hmem with ⟨old, hold, -, huser⟩ | ⟨-, hactor, hname⟩
    . rw [← huser]
      exact hs.messages roomId old hold
    . exact hg.actor _ _ hactor hname
  unique roomId roomId' message hmem message' hmem' hid := by
    rcases h.origin hmem with ⟨old, hold, holdId, -⟩ | ⟨rfl, -⟩
    . rcases h.origin hmem' with ⟨old', hold', holdId', -⟩ | ⟨rfl, -⟩
      . exact hs.unique roomId roomId' old hold old' hold' (by rw [holdId, holdId', hid])
      . exact absurd (holdId.trans hid) (messageId_ne_of_fresh hfresh hold)
    . rcases h.origin hmem' with ⟨old', hold', holdId', -⟩ | ⟨heq, -⟩
      . exact absurd (holdId'.trans hid.symm) (messageId_ne_of_fresh hfresh hold')
      . cases heq
        rfl

/--
A server without sessions and messages, all of whose accounts have an id.
-/
structure Fresh (p : ServerPool) : Prop where
  threads : p.threads = []
  players : p.state.players = ∅
  roomMessages : p.state.roomMessages = ∅
  accounts (key : String) (user : StoredUser)
    : p.state.accounts.users.lookup key = some user → user.id ≠ ""

theorem Fresh.authored {p : ServerPool} (h : Fresh p) : Authored p.state where
  accounts := h.accounts
  sessions sid player hplayer := by simp [h.players] at hplayer
  messages roomId message hmem := by simp [AppState.messages, h.roomMessages] at hmem
  unique roomId roomId' message hmem := by simp [AppState.messages, h.roomMessages] at hmem

theorem authored_of_run {p q : ServerPool} {tr : List ServerEvent} (hp : Fresh p)
    (h : Prog.Run server (fun _ _ s l _ => freshId s l) p tr q) : Authored q.state := by
  have hstart (req : Request) : (server.start req).Named := ⟨by simp [server], by simp [server]⟩
  refine ((transition_of_run h hp.threads).invariant Authored Memory.Named hstart ?_ hp.authored
    (by simp [hp.threads])).1
  intro g e s l s' hstep hs hg
  exact ⟨authored_step hstep.2 hstep.1 hs hg, named_step hstep.2 hs hg⟩

end Lqxp
