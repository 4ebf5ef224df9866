import Lqxp.Websocket.Dispatch
import Lqxp.Websocket.Protocol.Lemmas.Conversations

/-!
This module contains what the handlers of calls, devices, settings and signals keep to, and with them those of the
whole table.
-/

namespace Lqxp

namespace Conducts

variable {sid : String} {h : List AppState} {s : AppState}

section Calls

theorem setCall_credentials (isVoiceChat camera screen : Bool) (callRoom : Option String) (player : PlayerSession)
    : (player.setCall isVoiceChat camera screen callRoom).id = player.id
        ∧ (player.setCall isVoiceChat camera screen callRoom).credentials = player.credentials := by
  unfold PlayerSession.setCall
  split
  . exact ⟨rfl, rfl⟩
  . exact ⟨rfl, rfl⟩

theorem gentle_setCallIn {players : AssocMap String PlayerSession} (isVoiceChat camera screen : Bool)
    (callRoom : Option String) (player : PlayerSession) (hplayers : Gentle s { s with players })
    : Gentle s { s with players := (setCallIn sid isVoiceChat camera screen callRoom player players).2 } := by
  have hset : Gentle { s with players }
      { s with players := players.modify sid (PlayerSession.setCall isVoiceChat camera screen callRoom) } :=
    .modify (setCall_credentials isVoiceChat camera screen callRoom) rfl rfl
  unfold setCallIn
  simp only
  split
  . split
    . exact hplayers.trans hset
    . exact hplayers
  . exact hplayers.trans hset

theorem gentle_evictVoice (userId : String) : Gentle s { s with players := evictVoice sid userId s.players } := by
  refine .mapValues ?_ rfl fun _ _ hk => hk
  intro k player
  split
  . exact ⟨rfl, rfl⟩
  . exact ⟨rfl, rfl⟩

theorem setVoice (isVoiceChat camera screen : Bool) (callRoom : Option String)
    : Any sid (setVoice sid isVoiceChat camera screen callRoom) h := by
  refine gently fun e s _ => ?_
  split
  . exact ⟨rfl, .refl s, trivial⟩
  next player hplayer =>
    have hevicted : Gentle s { s with
        players := if isVoiceChat && player.userId ≠ "" then evictVoice sid player.userId s.players else s.players } := by
      split
      . exact gentle_evictVoice _
      . exact .refl s
    simp only
    split
    . exact ⟨rfl, hevicted, trivial⟩
    . exact ⟨rfl, gentle_setCallIn _ _ _ _ _ hevicted, trivial⟩

theorem broadcastVoice (isVoiceChat : Bool) (media : List (String × Json)) (player : PlayerSession)
    (rooms : List String) : Any sid (broadcastVoice isVoiceChat media player rooms) h := by
  induction rooms generalizing h with
  | nil => exact .pure trivial
  | cons gameId rooms ih => exact (broadcastToRoom rfl rfl).followed fun _ _ => ih

theorem broadcastEvicted (players : List PlayerSession) : Any sid (broadcastEvicted players) h := by
  induction players generalizing h with
  | nil => exact .pure trivial
  | cons player players ih => exact (broadcastVoice _ _ _ _).followed fun _ _ => ih

theorem hitVoiceJoin (userId : String) (isJoin : Bool) : Any sid (hitVoiceJoin sid userId isJoin) h := by
  unfold Lqxp.hitVoiceJoin
  split
  . exact hitRateLimit _ _ _
  . exact .pure trivial

theorem voiceRefused (userId : String) (callRoom : Option String) : Any sid (voiceRefused userId callRoom) h := by
  unfold Lqxp.voiceRefused
  split
  . refine (roomRecord _).followed fun room h => ?_
    split
    . exact (look _).followed fun _ _ => .pure trivial
    . exact .pure trivial
  . exact .pure trivial

theorem closeCallAccess (userId : String) (callRoom : Option String) : Any sid (closeCallAccess userId callRoom) h := by
  unfold Lqxp.closeCallAccess
  split
  . refine (roomRecord _).followed fun room h => ?_
    split
    . split
      . exact (quiet fun _ _ => ⟨rfl, rfl, rfl⟩).followed fun _ _ => broadcastToRoom rfl rfl
      . exact .pure trivial
    . exact .pure trivial
  . exact .pure trivial

theorem completeVoice (isVoiceChat camera screen : Bool) (callRoom : Option String) (reqId : Option String)
    : Any sid (completeVoice sid isVoiceChat camera screen callRoom reqId) h := by
  refine (setVoice _ _ _ _).followed fun answer h => ?_
  split
  . exact respondError _ _ _
  . refine (broadcastVoice _ _ _ _).followed fun _ h => (broadcastEvicted _).followed fun _ h => ?_
    exact respondOk _ _ (by decide)

theorem callsSwitchedOff (isVoiceChat : Bool) : Any sid (callsSwitchedOff isVoiceChat) h := by
  unfold Lqxp.callsSwitchedOff
  split
  . exact (look _).followed fun _ _ => .pure trivial
  . exact .pure trivial

theorem updateVoiceChat (d : Json) : Any sid (updateVoiceChat sid d) h := by
  refine (hitRateLimit _ _ _).followed fun hit h => ?_
  split
  . exact respondError _ _ _
  refine (callsSwitchedOff _).followed fun off h => ?_
  split
  . exact respondError _ _ _
  refine (look _).followed fun account h => (hitVoiceJoin _ _).followed fun joins h => ?_
  split
  . exact respondError _ _ _
  split
  . refine (voiceRefused _ _).followed fun refused h => ?_
    split
    . exact respondError _ _ _
    . exact completeVoice _ _ _ _ _
  . exact (closeCallAccess _ _).followed fun _ _ => completeVoice _ _ _ _ _

theorem setCallMedia (isVoiceChat camera screen : Bool) (callRoom : Option String)
    : Any sid (setCallMedia sid isVoiceChat camera screen callRoom) h := by
  refine gently fun e s _ => ?_
  split
  . exact ⟨rfl, .refl s, trivial⟩
  simp only
  split
  . exact ⟨rfl, .refl s, trivial⟩
  split
  . exact ⟨rfl, .refl s, trivial⟩
  split
  . exact ⟨rfl, .refl s, trivial⟩
  . exact ⟨rfl, gentle_setCallIn _ _ _ _ _ (.refl s), trivial⟩

theorem broadcastCallMedia (isVoiceChat : Bool) (media : Json) (player : PlayerSession) (rooms : List String)
    : Any sid (broadcastCallMedia isVoiceChat media player rooms) h := by
  induction rooms generalizing h with
  | nil => exact .pure trivial
  | cons gameId rooms ih => exact (broadcastToRoom rfl rfl).followed fun _ _ => ih

theorem updateCallMediaState (d : Json) : Any sid (updateCallMediaState sid d) h := by
  refine (hitRateLimit _ _ _).followed fun hit h => ?_
  split
  . exact respondError _ _ _
  refine (callsSwitchedOff _).followed fun off h => ?_
  split
  . exact respondError _ _ _
  refine (setCallMedia _ _ _ _).followed fun answer h => ?_
  split
  . exact respondError _ _ _
  . exact (broadcastCallMedia _ _ _ _).followed fun _ _ => respondOk _ _ (by decide)

theorem updateCallDeafenedState (d : Json) : Any sid (updateCallDeafenedState sid d) h := by
  unfold Lqxp.updateCallDeafenedState
  simp only
  split
  . split
    . exact respondError _ _ _
    refine followed (Q := fun _ _ => True) (gently fun e s _ => ?_) fun answer h => ?_
    . split
      . exact ⟨rfl, .refl s, trivial⟩
      split
      . exact ⟨rfl, .refl s, trivial⟩
      split
      . exact ⟨rfl, .refl s, trivial⟩
      split
      . exact ⟨rfl, .refl s, trivial⟩
      . refine ⟨rfl, .modify ?_ rfl rfl, trivial⟩
        exact fun _ => ⟨rfl, rfl⟩
    split
    . exact respondError _ _ _
    . exact (broadcastToRoom rfl rfl).followed fun _ _ => respondOk _ _ (by decide)
  . exact respondError _ _ _

theorem setCallAccess (d : Json) : Any sid (setCallAccess sid d) h := by
  refine communityRequest fun actor roomId room h => ?_
  split
  . exact respondError _ _ _
  . refine followed (Q := fun _ _ => True) (quiet fun _ _ => ⟨rfl, rfl, rfl⟩).any fun _ h => ?_
    exact (broadcastToRoom rfl rfl).followed fun _ _ => respondOk _ _ (by decide)

end Calls

section Devices

/--
Two sessions have been seen to belong to one account.
-/
def Siblings (sid k : String) (h : List AppState) : Prop :=
  ∃ userId, userId ≠ "" ∧ Known h (·.Belongs sid userId) ∧ Known h (·.Belongs k userId)

theorem relayRoute (toClientId : String)
    : Conducts sid (fun answer h' => ∀ route, answer = .ok route → ∀ target ∈ route.targets, Siblings sid target.1 h')
        (relayRoute sid toClientId) h := by
  refine (look _).mono fun answer h' _ ⟨e, s, hs, _, hanswer⟩ route hok target htarget => ?_
  rw [hok] at hanswer
  split at hanswer
  . contradiction
  next sender hsender =>
    split at hanswer
    . contradiction
    next hblank =>
      split at hanswer
      . contradiction
      obtain rfl := Except.ok.inj hanswer
      obtain ⟨x, hx, rfl⟩ := List.mem_map.1 htarget
      obtain ⟨hentry, hmatch⟩ := List.mem_filter.1 (List.mem_filter.1 hx).1
      obtain ⟨⟨k, player⟩, hmem, rfl⟩ := List.mem_map.1 hentry
      refine ⟨sender.userId, ?_, ⟨s, hs, sender, hsender, rfl⟩, ⟨s, hs, player, AList.mem_lookup_iff.2 hmem, ?_⟩⟩
      . intro hempty
        rw [hempty] at hblank
        exact hblank rfl
      . simpa using (Bool.and_eq_true_iff.1 hmatch).2

theorem relayCloudSyncOp (d : Json) : Any sid (relayCloudSyncOp sid d) h := by
  refine (hitRateLimit _ _ _).followed fun hit h => ?_
  split
  . exact respondError _ _ _
  split
  . split
    . exact respondError _ _ _
    simp only
    refine (relayRoute _).bind fun answer h₁ _ hanswer => ?_
    split
    . exact respondError _ _ _
    next route =>
      refine followed (Q := fun _ _ => True) (telling (f := fun e _ =>
        ((route.targets.filter fun target => e.accepts target.1,
          route.targets.countP fun target => !e.accepts target.1),
          (route.targets.filter fun target => e.accepts target.1).map (·.1), _)) ?_) fun answer h => ?_
      . intro e s _ k hk
        obtain ⟨target, htarget, rfl⟩ := List.mem_map.1 hk
        obtain ⟨userId, hne, hself, hother⟩ := hanswer route rfl target (List.mem_filter.1 htarget).1
        have hbegins := List.prefix_append h₁ [s]
        exact .of_no_room rfl rfl fun _ => .inl ⟨userId, hne, hself.mono hbegins, hother.mono hbegins⟩
      . split
        . exact respondOk _ _ (by decide)
        . exact .pure trivial
  . exact respondError _ _ _

theorem syncPeersOp (d : Json) : Any sid (syncPeersOp sid d) h := by
  refine (hitRateLimit _ _ _).followed fun hit h => ?_
  split
  . exact respondError _ _ _
  refine (look _).followed fun answer h => ?_
  split
  . exact respondError _ _ _
  . exact respondOk _ _ (by decide)

end Devices

section Settings

theorem parseUserProfile (current : UserProfile) (raw : Option Json) : Any sid (parseUserProfile current raw) h := by
  have himage (raw : Json) (key : String) (maxBytes : Nat) (current : Option ProfileImage) (h : List AppState)
      : Any sid (parseImageField raw key maxBytes current) h := by
    unfold parseImageField
    split
    . unfold parseProfileImage
      split
      . split
        . exact .pure trivial
        refine (storeUploadedBytes _ _ _).followed fun file h => ?_
        split
        . exact .pure trivial
        . exact .pure trivial
      . exact .pure trivial
    . exact .pure trivial
  unfold Lqxp.parseUserProfile
  split
  . split
    . exact .pure trivial
    split
    . exact .pure trivial
    refine (himage _ _ _ _ _).followed fun avatar h => ?_
    split
    . exact .pure trivial
    refine (himage _ _ _ _ _).followed fun banner h => ?_
    split
    . exact .pure trivial
    split
    . exact .pure trivial
    . exact .pure trivial
  . exact .pure trivial

theorem applySettings_credentials (d : Json) (profile : Option UserProfile) (status : Option UserPresenceStatus)
    (player : PlayerSession)
    : (player.applySettings d profile status).id = player.id
        ∧ (player.applySettings d profile status).credentials = player.credentials := by
  unfold PlayerSession.applySettings
  simp only
  split
  . exact ⟨rfl, rfl⟩
  . exact ⟨rfl, rfl⟩

theorem changeSettings (d : Json) (profile : Option UserProfile) (status : Option UserPresenceStatus)
    : Conducts sid (fun answer h' => ∀ old player, answer = some (old, player) → Known h' (·.Belongs sid player.userId))
        (changeSettings sid d profile status) h := by
  refine gently fun e s _ => ?_
  split
  . exact ⟨rfl, .refl s, fun _ _ hnone => by contradiction⟩
  next player hplayer =>
    refine ⟨rfl, .modify (applySettings_credentials d profile status) rfl rfl, fun old player' hsome => ?_⟩
    obtain ⟨rfl, rfl⟩ := Prod.mk.inj (Option.some.inj hsome)
    exact .before ⟨player, hplayer, (congrArg Prod.fst (applySettings_credentials d profile status player).2).symm⟩

theorem announceProfileAll (player : PlayerSession) (rooms : List String)
    : Any sid (announceProfileAll player rooms) h := by
  induction rooms generalizing h with
  | nil => exact .pure trivial
  | cons gameId rooms ih =>
    refine followed (Q := fun _ _ => True) ?_ fun _ _ => ih
    exact (look _).followed fun _ _ => broadcastToRoom rfl rfl

theorem announceStatusAll (player : PlayerSession) (wasVoiceChat : Bool) (rooms : List String)
    : Any sid (announceStatusAll player wasVoiceChat rooms) h := by
  induction rooms generalizing h with
  | nil => exact .pure trivial
  | cons gameId rooms ih =>
    refine followed (Q := fun _ _ => True) ?_ fun _ _ => ih
    refine (look _).followed fun rosters h => (broadcastToRoom rfl rfl).followed fun _ h => ?_
    split
    . exact broadcastToRoom rfl rfl
    . exact .pure trivial

theorem announceSyncPeer {old player : PlayerSession} (huser : Known h (·.Belongs sid player.userId))
    : Any sid (announceSyncPeer sid old player) h := by
  unfold Lqxp.announceSyncPeer
  split
  . exact broadcastSyncPeerEvent _ _ _ _ huser
  split
  . exact broadcastSyncPeerEvent _ _ _ _ huser
  . exact .pure trivial

theorem updateProfile (userId : String) (profile : UserProfile) : Any sid (updateProfile userId profile) h := by
  refine (quiet fun e s => ?_).any
  split
  . exact ⟨rfl, rfl, rfl⟩
  . exact ⟨rfl, rfl, rfl⟩

theorem persistProfile (player : PlayerSession) (changed : Bool) : Any sid (persistProfile player changed) h := by
  unfold Lqxp.persistProfile
  split
  . exact (updateProfile _ _).followed fun _ _ => .pure trivial
  . exact .pure trivial

theorem persistStatus (player : PlayerSession) (changed : Bool) : Any sid (persistStatus player changed) h := by
  unfold Lqxp.persistStatus
  split
  . exact (updateStatus _ _).followed fun _ _ => .pure trivial
  . exact .pure trivial

theorem updateClientSettings (d : Json) : Any sid (updateClientSettings sid d) h := by
  refine (hitRateLimit _ _ _).followed fun hit h => ?_
  split
  . exact respondError _ _ _
  refine (look _).followed fun current h => (parseUserProfile _ _).followed fun parsed h => ?_
  split
  . exact respondError _ _ _
  simp only
  refine (changeSettings _ _ _).bind fun answer h₁ _ hanswer => ?_
  split
  . exact respondError _ _ _
  next old player =>
    have huser := hanswer old player rfl
    refine (persistProfile _ _).bind fun _ h₂ hbegins₂ _ => (persistStatus _ _).bind fun _ h₃ hbegins₃ _ => ?_
    refine (respondOk _ _ (by decide)).bind fun _ h₄ hbegins₄ _ => (announceProfileAll _ _).bind fun _ h₅ hbegins₅ _ => ?_
    refine (announceStatusAll _ _ _).bind fun _ h₆ hbegins₆ _ => ?_
    refine (announceSyncPeer ?_).followed fun _ _ => .pure trivial
    exact ((((huser.mono hbegins₂).mono hbegins₃).mono hbegins₄).mono hbegins₅).mono hbegins₆

theorem broadcastProfileIn (player : PlayerSession) (profile : UserProfile) (rooms : List String)
    : Any sid (broadcastProfileIn player profile rooms) h := by
  induction rooms generalizing h with
  | nil => exact .pure trivial
  | cons gameId rooms ih =>
    refine followed (Q := fun _ _ => True) ?_ fun _ _ => ih
    exact (look _).followed fun rosters h => broadcastToRoom rfl rfl

theorem broadcastProfileUpdate (profile : UserProfile) (players : List PlayerSession)
    : Any sid (broadcastProfileUpdate profile players) h := by
  induction players generalizing h with
  | nil => exact .pure trivial
  | cons player players ih => exact (broadcastProfileIn _ _ _).followed fun _ _ => ih

theorem finishProfileImage (user : AuthenticatedUser) (kind : ProfileImageKind) (image : ProfileImage)
    : Any sid (Http.finishProfileImage user kind image) h := by
  refine followed (Q := fun _ _ => True) (gently fun e s _ => ?_) fun shared h => ?_
  . refine ⟨rfl, .mapValues ?_ rfl fun _ _ hk => hk, trivial⟩
    intro k player
    split
    . exact ⟨rfl, rfl⟩
    . exact ⟨rfl, rfl⟩
  refine followed (Q := fun _ _ => True) ?_ fun _ h => (updateProfile _ _).followed fun updated h => ?_
  . unfold removeProfileImage
    split
    . refine (quiet fun e s => ?_).any
      split
      . exact ⟨rfl, rfl, rfl⟩
      . exact ⟨rfl, rfl, rfl⟩
    . exact .pure trivial
  split
  . exact (broadcastProfileUpdate _ _).followed fun _ _ => .pure trivial
  . exact .pure trivial

theorem uploadProfileImage (user : AuthenticatedUser) (kind : String) (file : UploadedFile)
    : Any sid (Http.uploadProfileImage user kind file) h := by
  unfold Http.uploadProfileImage
  split
  . split
    . exact .pure trivial
    refine (storeUploadedBytes _ _ _).followed fun stored h => ?_
    split
    . exact finishProfileImage _ _ _
    . exact .pure trivial
  . exact .pure trivial

end Settings

section Signals

theorem isMember (gameId : String) : Any sid (isMember sid gameId) h := (look _).any

theorem reportKill (d : Json) : Any sid (reportKill sid d) h := by
  refine (hitRateLimit _ _ _).followed fun hit h => ?_
  split
  . exact respondError _ _ _
  split
  . split
    . split
      . exact respondError _ _ _
      split
      . refine (isMember _).followed fun member h => ?_
        split
        . refine nowMs.followed fun now h => (broadcastToRoom rfl rfl).followed fun _ h => ?_
          exact respondOk _ _ (by decide)
        . exact respondError _ _ _
      . exact respondError _ _ _
    . exact respondError _ _ _
  . exact respondError _ _ _

theorem callRoute (gameId toUser toClientId : String)
    : Conducts sid (fun answer h' => ∀ sender target, answer = .ok (sender, target) →
        Known h' (·.Holds target.id gameId)) (callRoute sid gameId toUser toClientId) h := by
  refine (look _).mono fun answer h' _ ⟨e, s, hs, htidy, hanswer⟩ sender target hok => ?_
  rw [hok] at hanswer
  split at hanswer
  . contradiction
  split at hanswer
  . contradiction
  simp only at hanswer
  split at hanswer
  next found hfound =>
    obtain ⟨-, rfl⟩ := Prod.mk.inj (Except.ok.inj hanswer)
    obtain ⟨hvalue, hmatch⟩ := List.mem_filter.1 (mem_of_pickFrom hfound)
    exact ⟨s, hs, target, htidy.id_of_mem hvalue, by grind⟩
  . contradiction

theorem relayCallSignal (d : Json) : Any sid (relayCallSignal sid d) h := by
  refine (hitRateLimit _ _ _).followed fun hit h => ?_
  split
  . exact respondError _ _ _
  refine (look _).followed fun enabled h => ?_
  split
  . exact respondError _ _ _
  split
  . split
    . exact respondError _ _ _
    split
    . simp only
      split
      . exact respondError _ _ _
      refine (callRoute _ _ _).bind fun answer h₁ _ hanswer => ?_
      split
      . exact respondError _ _ _
      next sender target =>
        refine (notify rfl rfl fun k hk => ?_).followed fun _ _ => .pure trivial
        obtain rfl := List.mem_singleton.1 hk
        exact hanswer sender target rfl
    . exact respondError _ _ _
  . exact respondError _ _ _

theorem roomRoute (roomId : String)
    : Conducts sid (fun answer h' => ∀ sender recipients, answer = .ok (sender, recipients) →
        ∀ k ∈ recipients, Known h' (·.Holds k roomId)) (roomRoute sid roomId) h := by
  refine (look _).mono fun answer h' _ ⟨e, s, hs, _, hanswer⟩ sender recipients hok k hk => ?_
  rw [hok] at hanswer
  split at hanswer
  . contradiction
  split at hanswer
  . contradiction
  obtain ⟨-, rfl⟩ := Prod.mk.inj (Except.ok.inj hanswer)
  obtain ⟨⟨k, player⟩, hentry, rfl⟩ := List.mem_map.1 hk
  obtain ⟨hmem, hmatch⟩ := List.mem_filter.1 hentry
  exact ⟨s, hs, player, AList.mem_lookup_iff.2 hmem, by simpa using (Bool.and_eq_true_iff.1 hmatch).2⟩

theorem relayRoomSignal (d : Json) : Any sid (relayRoomSignal sid d) h := by
  refine (hitRateLimit _ _ _).followed fun hit h => ?_
  split
  . exact respondError _ _ _
  split
  . split
    . split
      . exact respondError _ _ _
      refine (roomRoute _).bind fun answer h₁ _ hanswer => ?_
      split
      . exact respondError _ _ _
      next sender recipients =>
        exact (notify rfl rfl (hanswer sender recipients rfl)).followed fun _ _ => .pure trivial
    . exact respondError _ _ _
  . exact respondError _ _ _

theorem updateTypingState (d : Json) : Any sid (updateTypingState sid d) h := by
  refine (hitRateLimit _ _ _).followed fun hit h => ?_
  split
  . exact .pure trivial
  refine (resolveRoomForSession _).followed fun answer h => ?_
  split
  . exact respondError _ _ _
  simp only
  refine (look _).followed fun answer h => ?_
  split
  . exact respondError _ _ _
  . exact (broadcastToRoom rfl rfl).followed fun _ _ => .pure trivial

theorem mute_credentials (username : String) (isMuted : Bool) (player : PlayerSession)
    : (player.mute username isMuted).id = player.id
        ∧ (player.mute username isMuted).credentials = player.credentials := by
  unfold PlayerSession.mute
  split
  . split
    . exact ⟨rfl, rfl⟩
    . exact ⟨rfl, rfl⟩
  . exact ⟨rfl, rfl⟩

theorem updateMuteState (d : Json) : Any sid (updateMuteState sid d) h := by
  unfold Lqxp.updateMuteState
  split
  next rawUsername _ =>
    simp only
    generalize Text.takeChars 32 (Text.trim rawUsername) = username
    split
    . exact respondError _ _ _
    split
    . refine followed (Q := fun _ _ => True) (gently fun e s _ => ?_) fun answer h => ?_
      . split
        . exact ⟨rfl, .refl s, trivial⟩
        split
        . exact ⟨rfl, .refl s, trivial⟩
        split
        . exact ⟨rfl, .refl s, trivial⟩
        . exact ⟨rfl, .modify (mute_credentials _ _) rfl rfl, trivial⟩
      split
      . exact respondError _ _ _
      . exact .pure trivial
    . exact respondError _ _ _
  . exact respondError _ _ _

theorem sessionIsAdmin
    : Conducts sid (fun admin h' => admin = true → Known h' (·.Administers sid)) (sessionIsAdmin sid) h := by
  refine (look _).mono fun admin h' _ ⟨e, s, hs, _, hadmin⟩ htrue => ⟨s, hs, ?_⟩
  rw [htrue] at hadmin
  obtain ⟨player, hplayer, hmatch⟩ := (Option.any_eq_true _ _).1 hadmin.symm
  exact ⟨player, hplayer, by simpa using hmatch⟩

theorem adminStatus (d : Json) : Any sid (adminStatus sid d) h := by
  refine sessionIsAdmin.followed fun admin h => ?_
  split
  . exact respondError _ _ _
  . exact (look _).followed fun _ _ => respondOk _ _ (by decide)

theorem adminBroadcast (d : Json) : Any sid (adminBroadcast sid d) h := by
  refine sessionIsAdmin.bind fun admin h₁ _ hadmin => ?_
  split
  . exact respondError _ _ _
  next htrue =>
    have hknown := hadmin (by simpa using htrue)
    split
    next raw _ =>
      simp only
      generalize Text.takeChars 2000 (Text.trim raw) = msg
      split
      . exact respondError _ _ _
      refine (look _).any.bind fun recipients h₂ hbegins₂ _ => ?_
      refine followed (Q := fun _ _ => True) (telling (f := fun _ _ => ((), recipients, _)) ?_) fun _ _ => respondOk _ _ (by decide)
      intro e s _ k _
      exact .of_no_room rfl rfl fun _ => .inr ((hknown.mono hbegins₂).mono (List.prefix_append _ _))
    . exact respondError _ _ _

theorem statsQuery (d : Json) : Any sid (statsQuery sid d) h := by
  refine (hitRateLimit _ _ _).followed fun hit h => ?_
  split
  . exact respondError _ _ _
  refine followed (Q := fun _ _ => True) ?_ fun answer h => ?_
  . unfold statsRoom
    split
    . refine (resolveRoomForSession _).followed fun answer h => ?_
      split
      . exact .pure trivial
      . exact .pure trivial
    . exact (look _).any
  split
  . exact respondError _ _ _
  refine followed (Q := fun _ _ => True) ?_ fun count h => respondOk _ _ (by decide)
  unfold onlineCount
  split
  . exact (look _).followed fun _ _ => .pure trivial
  . exact (look _).any

end Signals

theorem protoHandler {op : Nat} {handler : String → Json → Proto Bool} (hhandler : protoHandler op = some handler)
    (d : Json) : Any sid (handler sid d) h := by
  unfold Lqxp.protoHandler at hhandler
  split at hhandler
  all_goals first | contradiction | obtain rfl := Option.some.inj hhandler
  . exact identifyPlayer d
  . exact joinGame d
  . exact leaveGame d
  . exact reportKill d
  . exact sendChatMessage d
  . exact updateClientSettings d
  . exact sendRoomHistory d
  . exact toggleMessageReaction d
  . exact deleteMessage d
  . exact requestLinkPreview d
  . exact editMessage d
  . exact updateTypingState d
  . exact uploadRoomIcon d
  . exact updateRoomTitle d
  . exact createRoom d
  . exact updateRoomDescription d
  . exact setMemberRole d
  . exact banMember d
  . exact unbanMember d
  . exact kickMember d
  . exact timeoutMember d
  . exact transferOwnership d
  . exact changeSetting (by decide)
  . exact setModeratorPermissions d
  . exact changeSetting (by decide)
  . exact setCallAccess d
  . exact unmuteMember d
  . exact relayRoomSignal d
  . exact deleteRoomOp d
  . exact relayCloudSyncOp d
  . exact syncPeersOp d
  . exact updateVoiceChat d
  . exact updateMuteState d
  . exact adminStatus d
  . exact adminBroadcast d
  . exact statsQuery d
  . exact updateCallMediaState d
  . exact relayCallSignal d
  . exact updateCallDeafenedState d

end Conducts

end Lqxp
