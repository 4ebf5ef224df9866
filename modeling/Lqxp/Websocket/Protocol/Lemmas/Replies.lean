import Lqxp.Websocket.Protocol.Transition

/-!
This module contains lemmas about replies: which of them confirm a request, and which refuse it.
-/

namespace Lqxp

theorem lookup_filter_append {key key' : String} (fields : List (String × Json)) (value : Json)
    : (fields.filter (·.1 != key) ++ [(key, value)]).lookup key'
        = if key' = key then some value else fields.lookup key' := by
  induction fields with
  | nil =>
    by_cases h : key' = key
    . simp [h]
    . have hbeq : (key' == key) = false := by simpa using h
      simp [h, List.lookup_cons, hbeq]
  | cons field fields ih =>
    obtain ⟨k, v⟩ := field
    by_cases hk : k = key
    . subst hk
      by_cases h : key' = k
      . simpa [h] using ih
      . have hbeq : (key' == k) = false := by simpa using h
        simpa [h, List.lookup_cons, hbeq] using ih
    . rw [List.filter_cons_of_pos (by simpa using hk), List.cons_append, List.lookup_cons,
        List.lookup_cons, ih]
      by_cases h : key' = k
      . subst h
        simp [hk]
      . have hbeq : (key' == k) = false := by simpa using h
        simp [hbeq]

theorem Json.get?_insert (key key' : String) (fields : List (String × Json)) (value : Json)
    : ((Json.obj fields).insert key value).get? key'
        = if key' = key then some value else (Json.obj fields).get? key' :=
  lookup_filter_append fields value

section Answers

/--
Whether a payload tells that a request with the given operation code has failed.
-/
def isError (op : Nat) (payload : Json) : Bool :=
  match payload.get? "op", (payload.get? "d").bind (·.getStr? "error") with
  | some (.int n), some _ => n = op
  | _, _ => false

theorem isError_message (op op' : Nat) (d : List (String × Json))
    : isError op (message op' d) = ((Json.obj d).getStr? "error").any fun _ => op' = op := by
  rw [isError, get?_op_message, get?_d_message, Option.bind_some]
  cases (Json.obj d).getStr? "error" with
  | none => rfl
  | some text =>
    rw [Option.any_some, decide_eq_decide]
    exact Int.ofNat_inj

theorem isError_withRequestId (op op' : Nat) (d : List (String × Json)) (reqId : Option String)
    : isError op (withRequestId (message op' d) reqId) = isError op (message op' d) := by
  cases reqId with
  | none => rfl
  | some reqId =>
    simp only [isError, withRequestId, get?_d_message]
    simp [message, Json.get?_insert, Json.getStr?, Option.filter, Json.isObject]

theorem isOk_withRequestId (op op' : Nat) (d : List (String × Json)) (reqId : Option String)
    : isOk op (withRequestId (message op' d) reqId) = isOk op (message op' d) := by
  cases reqId with
  | none => rfl
  | some reqId =>
    simp only [isOk, withRequestId, get?_d_message]
    simp [message, Json.get?_insert, Json.getBool?, Option.filter, Json.isObject]

end Answers

theorem isOkFor_withRequestId (op op' : Nat) (roomId : String) (d : List (String × Json))
    (reqId : Option String)
    : isOkFor op roomId (withRequestId (message op' d) reqId)
        = isOkFor op roomId (message op' d) := by
  cases reqId with
  | none => rfl
  | some reqId =>
    simp only [isOkFor, isOk, withRequestId, get?_d_message]
    simp [message, Json.get?_insert, Json.getBool?, Json.getStr?, Option.filter, Json.isObject]
    rfl

theorem not_isOkFor_error (op op' : Nat) (roomId text : String) (fields : List (String × Json))
    (hfields : fields.lookup "ok" = none)
    : isOkFor op roomId (message op' (("error", .str text) :: fields)) = false := by
  have hok : (("error", Json.str text) :: fields).lookup "ok" = none := by
    simpa [List.lookup_cons] using hfields
  simp [isOkFor, isOk, message, Json.get?, Json.getBool?, List.lookup_cons, hok]

theorem eq_of_isOkFor {op op' : Nat} {roomId gameId : String} {fields : List (String × Json)}
    (h : isOkFor op roomId (message op' (("ok", .bool true) :: ("gameId", .str gameId) :: fields)))
    : roomId = gameId := by
  simp only [isOkFor, isOk, message, Json.get?, Json.getStr?, Bool.and_eq_true] at h
  exact (by simpa [List.lookup_cons, Json.get?, Json.asStr?] using h.2 : gameId = roomId).symm

namespace Memory

/--
Runs of other operations than bans and creations confirm nothing that has to be backed by a write.
-/
def Unbound (g : Memory) : Prop := g.req.op? ≠ some .ban ∧ g.req.op? ≠ some .create

theorem unbound_of_op {g : Memory} (op : Op) (hop : g.req.op? = some op) (hban : op ≠ .ban)
    (hcreate : op ≠ .create) : g.Unbound := by
  constructor <;> (rw [hop]; simpa)

theorem Unbound.confirms {g : Memory} (h : g.Unbound) (payload : Json) : g.Confirms payload :=
  ⟨fun _ hban => absurd hban h.1, fun _ hcreate => absurd hcreate h.2⟩

theorem confirms_error (g : Memory) (op : Nat) (text : String) (fields : List (String × Json))
    (reqId : Option String) (hfields : fields.lookup "ok" = none)
    : g.Confirms (withRequestId (message op (("error", .str text) :: fields)) reqId) := by
  constructor
  . intro roomId _ hok
    rw [isOkFor_withRequestId, not_isOkFor_error _ _ _ _ _ hfields] at hok
    contradiction
  . intro roomId _ hok
    rw [isOkFor_withRequestId, not_isOkFor_error _ _ _ _ _ hfields] at hok
    contradiction

end Memory

end Lqxp
