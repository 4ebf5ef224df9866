import Mathlib.Data.String.Basic
import Lqxp.Data.Toggling
import Lqxp.Websocket.Protocol.Impl.Buffer

/-!
This module contains what the reactions to a message represent: a set of pairs of an emoji and a user, each of
which a reaction puts in or takes out.
-/

namespace Lqxp

/--
The groups are sorted by their emojis, and each has at least one user, its users sorted and counted.
-/
structure ValidReactions (reactions : List MessageReaction) : Prop where
  sorted : (reactions.map (·.emoji)).Pairwise (· < ·)
  nonempty : ∀ r ∈ reactions, r.users ≠ []
  users_sorted : ∀ r ∈ reactions, r.users.Pairwise (· < ·)
  count_eq : ∀ r ∈ reactions, r.count = r.users.length

/--
Whether a user has reacted with an emoji.
-/
def HasReaction (reactions : List MessageReaction) (pair : String × String) : Prop :=
  ∃ r ∈ reactions, r.emoji = pair.1 ∧ pair.2 ∈ r.users

def MessageReaction.first (emoji username : String) : MessageReaction := { emoji, users := [username], count := 1 }

/--
What a reaction does to the groups of a message.
-/
def toggleReactions (pair : String × String) (reactions : List MessageReaction) : List MessageReaction :=
  let index := reactions.findIdx (·.emoji = pair.1)
  match reactions[index]? with
  | some reaction =>
    let toggled := reaction.toggle pair.2
    if toggled.count = 0 then reactions.eraseIdx index else reactions.set index toggled
  | none =>
    (reactions ++ [MessageReaction.first pair.1 pair.2]).insertionSort (·.emoji ≤ ·.emoji)

theorem toggleReactionInMessage_eq (emoji username : String) (message : ChatMessageRecord)
    : toggleReactionInMessage emoji username message
        = { message with reactions := toggleReactions (emoji, username) message.reactions } := by
  rw [toggleReactionInMessage, toggleReactions]
  dsimp only
  cases message.reactions[message.reactions.findIdx (·.emoji = emoji)]? with
  | none => rfl
  | some r =>
    dsimp only
    split <;> rfl

section Groups

variable {r : MessageReaction} {username : String}

theorem toggle_count (r : MessageReaction) (username : String)
    : (r.toggle username).count = (r.toggle username).users.length := rfl

theorem toggle_users (r : MessageReaction) (username : String)
    : (r.toggle username).users
        = if r.users.contains username then
            r.users.filter (· ≠ username)
          else
            (r.users ++ [username]).insertionSort (· ≤ ·) := rfl

theorem mem_users_toggle (r : MessageReaction) (username u : String)
    : u ∈ (r.toggle username).users ↔ Xor (u ∈ r.users) (u = username) := by
  rw [toggle_users]
  split
  next hmem =>
    rw [List.contains_iff_mem] at hmem
    rw [List.mem_filter, decide_eq_true_eq]
    by_cases hu : u = username
    . simp [Xor, hu, hmem]
    . simp [Xor, hu]
  next hnot =>
    rw [List.contains_iff_mem] at hnot
    rw [List.mem_insertionSort, List.mem_append, List.mem_singleton]
    by_cases hu : u = username
    . simp [Xor, hu, hnot]
    . simp [Xor, hu]

theorem sorted_users_toggle (h : r.users.Pairwise (· < ·)) : (r.toggle username).users.Pairwise (· < ·) := by
  rw [toggle_users]
  split
  next => exact h.filter _
  next hnot =>
    rw [List.contains_iff_mem] at hnot
    refine Toggling.pairwise_lt_insertionSort (List.nodup_append.2 ⟨h.imp ne_of_lt, List.nodup_singleton _, ?_⟩)
    intro a ha b hb
    rw [List.mem_singleton.1 hb]
    rintro rfl
    exact hnot ha

end Groups

section Lists

variable {reactions reactions' : List MessageReaction} {emoji username : String}

theorem hasReaction_append (reactions reactions' : List MessageReaction) (pair : String × String)
    : HasReaction (reactions ++ reactions') pair ↔ HasReaction reactions pair ∨ HasReaction reactions' pair := by
  simp only [HasReaction, List.mem_append, or_and_right, exists_or]

theorem hasReaction_singleton (r : MessageReaction) (pair : String × String)
    : HasReaction [r] pair ↔ r.emoji = pair.1 ∧ pair.2 ∈ r.users := by
  simp [HasReaction]

theorem not_hasReaction (h : ∀ r ∈ reactions, r.emoji ≠ emoji) : ¬ HasReaction reactions (emoji, username) := by
  rintro ⟨r, hr, hemoji, -⟩
  exact h r hr hemoji

theorem toggleReactions_cases (emoji : String) (reactions : List MessageReaction)
    : (∃ before r after, reactions = before ++ r :: after ∧ r.emoji = emoji
          ∧ ∀ username, toggleReactions (emoji, username) reactions
              = before ++ (if (r.toggle username).users = [] then [] else [r.toggle username]) ++ after)
      ∨ (∀ r ∈ reactions, r.emoji ≠ emoji)
          ∧ ∀ username, toggleReactions (emoji, username) reactions
              = (reactions ++ [MessageReaction.first emoji username]).insertionSort (·.emoji ≤ ·.emoji) := by
  by_cases hall : ∀ r ∈ reactions, r.emoji ≠ emoji
  . refine .inr ⟨hall, fun username => ?_⟩
    have hindex : reactions.findIdx (·.emoji = emoji) = reactions.length :=
      List.findIdx_eq_length.2 fun r hr => decide_eq_false (hall r hr)
    rw [toggleReactions, hindex, List.getElem?_eq_none (Nat.le_refl _)]
  . left
    have hlt : reactions.findIdx (·.emoji = emoji) < reactions.length := by
      refine List.findIdx_lt_length.2 ?_
      simpa using hall
    have hemoji : reactions[reactions.findIdx (·.emoji = emoji)].emoji = emoji :=
      of_decide_eq_true (List.findIdx_getElem (w := hlt))
    refine ⟨reactions.take (reactions.findIdx (·.emoji = emoji)), _,
      reactions.drop (reactions.findIdx (·.emoji = emoji) + 1), ?_, hemoji, fun username => ?_⟩
    . rw [List.getElem_cons_drop, List.take_append_drop]
    . rw [toggleReactions]
      dsimp only
      rw [List.getElem?_eq_getElem hlt]
      dsimp only
      by_cases hempty : (reactions[reactions.findIdx (·.emoji = emoji)].toggle username).users = []
      . rw [if_pos (by rw [toggle_count, hempty]; rfl), if_pos hempty, List.append_nil,
          List.eraseIdx_eq_take_drop_succ]
      . rw [if_neg (by rw [toggle_count, List.length_eq_zero_iff]; exact hempty), if_neg hempty,
          List.set_eq_take_append_cons_drop, if_pos hlt, List.append_assoc, List.singleton_append]

theorem emoji_ne_of_split {before after : List MessageReaction} {r : MessageReaction}
    (h : ((before ++ r :: after).map (·.emoji)).Pairwise (· < ·))
    : (∀ r' ∈ before, r'.emoji ≠ r.emoji) ∧ ∀ r' ∈ after, r'.emoji ≠ r.emoji := by
  rw [List.map_append, List.map_cons, List.pairwise_append] at h
  obtain ⟨-, hafter, hacross⟩ := h
  constructor
  . intro r' hr'
    exact ne_of_lt (hacross _ (List.mem_map_of_mem hr') _ List.mem_cons_self)
  . intro r' hr'
    exact ne_of_gt ((List.pairwise_cons.1 hafter).1 _ (List.mem_map_of_mem hr'))

theorem ValidReactions.nodup (h : ValidReactions reactions) : reactions.Nodup :=
  List.Nodup.of_map _ (h.sorted.imp ne_of_lt)

theorem ValidReactions.toggle (h : ValidReactions reactions) (pair : String × String)
    : ValidReactions (toggleReactions pair reactions) := by
  obtain ⟨emoji, username⟩ := pair
  obtain ⟨before, r, after, rfl, rfl, htoggle⟩ | ⟨hnone, htoggle⟩ := toggleReactions_cases emoji reactions
  . rw [htoggle]
    have hmem : ∀ r' ∈ before ++ (if (r.toggle username).users = [] then [] else [r.toggle username]) ++ after,
        r' ∈ before ++ r :: after ∨ r' = r.toggle username ∧ (r.toggle username).users ≠ [] := by
      intro r' hr'
      simp only [List.mem_append] at hr'
      rcases hr' with (hr' | hr') | hr'
      . exact .inl (List.mem_append_left _ hr')
      . split at hr'
        . contradiction
        next hne => exact .inr ⟨List.mem_singleton.1 hr', hne⟩
      . exact .inl (List.mem_append_right _ (List.mem_cons_of_mem _ hr'))
    refine ⟨?_, fun r' hr' => ?_, fun r' hr' => ?_, fun r' hr' => ?_⟩
    . refine h.sorted.sublist ?_
      rw [List.map_append, List.map_append, List.map_append, List.map_cons, List.append_assoc]
      refine (List.Sublist.refl _).append ?_
      split
      . exact List.sublist_cons_self _ _
      . exact List.Sublist.refl _
    . rcases hmem r' hr' with hold | ⟨rfl, hne⟩
      . exact h.nonempty r' hold
      . exact hne
    . rcases hmem r' hr' with hold | ⟨rfl, -⟩
      . exact h.users_sorted r' hold
      . exact sorted_users_toggle (h.users_sorted r (by simp))
    . rcases hmem r' hr' with hold | ⟨rfl, -⟩
      . exact h.count_eq r' hold
      . exact toggle_count r username
  . rw [htoggle]
    have hmem : ∀ r' ∈ (reactions ++ [MessageReaction.first emoji username]).insertionSort (·.emoji ≤ ·.emoji),
        r' ∈ reactions ∨ r' = .first emoji username := by
      intro r' hr'
      rw [List.mem_insertionSort, List.mem_append, List.mem_singleton] at hr'
      exact hr'
    refine ⟨?_, fun r' hr' => ?_, fun r' hr' => ?_, fun r' hr' => ?_⟩
    . rw [List.map_insertionSort _ (· ≤ ·) MessageReaction.emoji _ fun _ _ _ _ => Iff.rfl]
      refine Toggling.pairwise_lt_insertionSort ?_
      rw [List.map_append, List.nodup_append]
      refine ⟨h.sorted.imp ne_of_lt, List.nodup_singleton _, ?_⟩
      intro a ha b hb
      obtain ⟨r, hr, rfl⟩ := List.mem_map.1 ha
      rw [List.mem_singleton.1 hb]
      exact hnone r hr
    . rcases hmem r' hr' with hold | rfl
      . exact h.nonempty r' hold
      . exact List.cons_ne_nil _ _
    . rcases hmem r' hr' with hold | rfl
      . exact h.users_sorted r' hold
      . exact List.pairwise_singleton _ _
    . rcases hmem r' hr' with hold | rfl
      . exact h.count_eq r' hold
      . rfl

theorem hasReaction_toggle (h : ValidReactions reactions) (pair pair' : String × String)
    : HasReaction (toggleReactions pair reactions) pair' ↔ Xor (HasReaction reactions pair') (pair' = pair) := by
  obtain ⟨emoji, username⟩ := pair
  obtain ⟨emoji', username'⟩ := pair'
  obtain ⟨before, r, after, rfl, rfl, htoggle⟩ | ⟨hnone, htoggle⟩ := toggleReactions_cases emoji reactions
  . obtain ⟨hbefore, hafter⟩ := emoji_ne_of_split h.sorted
    have hgroup : HasReaction (if (r.toggle username).users = [] then [] else [r.toggle username]) (emoji', username')
        ↔ r.emoji = emoji' ∧ Xor (username' ∈ r.users) (username' = username) := by
      rw [← mem_users_toggle]
      split
      next hempty => simp [HasReaction, hempty]
      next => exact hasReaction_singleton _ _
    rw [htoggle, hasReaction_append, hasReaction_append, hgroup, hasReaction_append, ← List.singleton_append,
      hasReaction_append, hasReaction_singleton]
    by_cases hemoji : r.emoji = emoji'
    . subst hemoji
      simp [not_hasReaction hbefore, not_hasReaction hafter, Xor]
    . simp [hemoji, Ne.symm hemoji, Xor]
  . have hsorted : HasReaction ((reactions ++ [MessageReaction.first emoji username]).insertionSort
        (·.emoji ≤ ·.emoji)) (emoji', username')
        ↔ HasReaction (reactions ++ [MessageReaction.first emoji username]) (emoji', username') := by
      simp only [HasReaction, List.mem_insertionSort]
    rw [htoggle, hsorted, hasReaction_append, hasReaction_singleton]
    by_cases hemoji : emoji' = emoji
    . subst hemoji
      simp [not_hasReaction hnone, MessageReaction.first, Xor]
    . simp [MessageReaction.first, hemoji, Ne.symm hemoji, Xor]

theorem mem_of_hasReaction_iff (h : ValidReactions reactions) (h' : ValidReactions reactions')
    (hiff : ∀ pair, HasReaction reactions pair ↔ HasReaction reactions' pair) {r : MessageReaction}
    (hr : r ∈ reactions) : r ∈ reactions' := by
  have hsame {l : List MessageReaction} (hl : ValidReactions l) {r r' : MessageReaction} (hr : r ∈ l) (hr' : r' ∈ l)
      (hemoji : r.emoji = r'.emoji) : r = r' :=
    List.inj_on_of_nodup_map (hl.sorted.imp ne_of_lt) hr hr' hemoji
  obtain ⟨u, hu⟩ := List.exists_mem_of_ne_nil _ (h.nonempty r hr)
  obtain ⟨r', hr', hemoji, -⟩ := (hiff (r.emoji, u)).1 ⟨r, hr, rfl, hu⟩
  -- the two groups of one emoji have the same users
  have husers : r.users = r'.users := by
    refine Toggling.eq_of_pairwise_lt (h.users_sorted r hr) (h'.users_sorted r' hr') fun v => ⟨fun hv => ?_, fun hv => ?_⟩
    . obtain ⟨r'', hr'', hemoji'', hv''⟩ := (hiff (r.emoji, v)).1 ⟨r, hr, rfl, hv⟩
      rwa [hsame h' hr' hr'' (hemoji.trans hemoji''.symm)]
    . obtain ⟨r'', hr'', hemoji'', hv''⟩ := (hiff (r.emoji, v)).2 ⟨r', hr', hemoji, hv⟩
      rwa [hsame h hr hr'' hemoji''.symm]
  have hcount : r.count = r'.count := by rw [h.count_eq r hr, h'.count_eq r' hr', husers]
  obtain ⟨emoji, users, count⟩ := r
  obtain ⟨emoji', users', count'⟩ := r'
  obtain rfl : emoji' = emoji := hemoji
  obtain rfl : users = users' := husers
  obtain rfl : count = count' := hcount
  exact hr'

theorem eq_of_hasReaction_iff (h : ValidReactions reactions) (h' : ValidReactions reactions')
    (hiff : ∀ pair, HasReaction reactions pair ↔ HasReaction reactions' pair) : reactions = reactions' := by
  have hperm : reactions.Perm reactions' := by
    refine (List.perm_ext_iff_of_nodup h.nodup h'.nodup).2 fun r => ?_
    exact ⟨mem_of_hasReaction_iff h h' hiff, mem_of_hasReaction_iff h' h fun pair => (hiff pair).symm⟩
  refine @List.Perm.eq_of_pairwise _ (fun a b => a.emoji < b.emoji) _ _ ?_ (List.pairwise_map.1 h.sorted)
    (List.pairwise_map.1 h'.sorted) hperm
  intro a b _ _ hab hba
  exact absurd hab (lt_asymm hba)

theorem toggles_reactions : Toggling.Toggles ValidReactions HasReaction toggleReactions where
  keeps pair _ h := h.toggle pair
  has_toggle pair pair' _ h := hasReaction_toggle h pair pair'
  ext _ _ := eq_of_hasReaction_iff

end Lists

/--
The reactions to a message after a sequence of them.
-/
def reactAll (pairs : List (String × String)) (message : ChatMessageRecord) : ChatMessageRecord :=
  pairs.foldl (fun message pair => toggleReactionInMessage pair.1 pair.2 message) message

theorem reactAll_eq (pairs : List (String × String)) (message : ChatMessageRecord)
    : reactAll pairs message
        = { message with reactions := Toggling.toggleAll toggleReactions pairs message.reactions } := by
  induction pairs generalizing message with
  | nil => rfl
  | cons pair pairs ih =>
    rw [reactAll, List.foldl_cons, ← reactAll, ih, toggleReactionInMessage_eq]
    rfl

/--
Reactions form a set: a reaction keeps the groups in order, twice the same is nothing at all, the order of two
does not matter, and after any number of them only the parities of the pairs count.
-/
theorem reactions_form_set {message : ChatMessageRecord} (h : ValidReactions message.reactions)
    : (∀ emoji username, ValidReactions (toggleReactionInMessage emoji username message).reactions)
      ∧ (∀ emoji username,
          toggleReactionInMessage emoji username (toggleReactionInMessage emoji username message) = message)
      ∧ (∀ emoji username emoji' username',
          toggleReactionInMessage emoji username (toggleReactionInMessage emoji' username' message)
            = toggleReactionInMessage emoji' username' (toggleReactionInMessage emoji username message))
      ∧ (∀ pairs pair, HasReaction (reactAll pairs message).reactions pair
          ↔ Xor (HasReaction message.reactions pair) (Odd (pairs.count pair)))
      ∧ ∀ pairs pairs', (∀ pair, Odd (pairs.count pair) ↔ Odd (pairs'.count pair)) →
          reactAll pairs message = reactAll pairs' message := by
  refine ⟨fun emoji username => ?_, fun emoji username => ?_, fun emoji username emoji' username' => ?_,
    fun pairs pair => ?_, fun pairs pairs' hparity => ?_⟩
  . rw [toggleReactionInMessage_eq]
    exact h.toggle _
  . rw [toggleReactionInMessage_eq, toggleReactionInMessage_eq, toggles_reactions.toggle_toggle h]
  . simp only [toggleReactionInMessage_eq]
    rw [toggles_reactions.toggle_comm h]
  . rw [reactAll_eq]
    exact toggles_reactions.has_toggleAll pairs h pair
  . rw [reactAll_eq, reactAll_eq, toggles_reactions.toggleAll_congr h hparity]

def likedMessage : ChatMessageRecord :=
  { messageId := "m", roomId := "commons1", user := "Ben", username := "Ben", userId := "ben", text := "hi"
    timestamp := 0, reactions := [.first "+" "anna"] }

theorem reactions_form_set_likedMessage
    : toggleReactionInMessage "+" "ben" (toggleReactionInMessage "+" "ben" likedMessage) = likedMessage := by
  have hvalid : ValidReactions likedMessage.reactions :=
    ⟨List.pairwise_singleton _ _, by simp [likedMessage, MessageReaction.first],
      by simp [likedMessage, MessageReaction.first], by simp [likedMessage, MessageReaction.first]⟩
  exact (reactions_form_set hvalid).2.1 "+" "ben"

end Lqxp
