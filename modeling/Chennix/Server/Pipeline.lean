import Chennix.Core.Billing
import Chennix.Storage.Schema

/-!
# The storage adapter as a billing repository

The statements the adapter runs for the billing manager. The three atomic methods are single
transactions: they commit as a whole or leave the database as it was. The text `now` is the time
the adapter writes into the rows it touches.

Amounts are integers here. The database keeps them as such up to 64 bits; a greater sum becomes a
floating-point number, and its column can no longer be read as an amount. A result that depends on
it says where the amounts fit.

## Main definitions

* `IsI64` — the integers that a column can hold
* `StorageAdapter.preChargeAtomic`, `settleAtomic`, `refundAtomic` — the transactions
* `BillingReq.answer` — the repository interface, as the adapter implements it
* `Db.applyCharge` — what a charge does to the accounts

## Main results

* `BillingReq.answer_cases` — every call applies its own charge, or sets a token's status, or
  changes nothing
* `Db.users_answer`, `Db.tokens_answer` — the accounts after a call, in terms of its charge
-/

namespace Chennix

open Foundations

/-- The integer fits 64 bits. -/
def IsI64 (n : ℤ) : Prop := -2 ^ 63 ≤ n ∧ n < 2 ^ 63

instance : DecidablePred IsI64 := fun _ => inferInstanceAs (Decidable (_ ∧ _))

namespace UserRow

/-- The row after `used_quota = used_quota + delta`. -/
def addUsed (now : String) (delta : ℤ) (r : UserRow) : UserRow :=
  { r with usedQuota := r.usedQuota + delta, updatedAt := now }

theorem key_addUsed (now : String) (delta : ℤ) (r : UserRow) :
    key (r.addUsed now delta) = key r := rfl

/-- `(quota - used_quota) >= amount`. -/
def affords (amount : ℤ) (r : UserRow) : Bool := r.quota - r.usedQuota ≥ amount

end UserRow

namespace TokenRow

/-- The row after `remain_quota = remain_quota - delta, used_quota = used_quota + delta`. -/
def addUsed (now : String) (delta : ℤ) (r : TokenRow) : TokenRow :=
  { r with
    remainQuota := r.remainQuota - delta
    usedQuota := r.usedQuota + delta
    updatedAt := now }

theorem key_addUsed (now : String) (delta : ℤ) (r : TokenRow) :
    key (r.addUsed now delta) = key r := rfl

/-- The row after `status = status`. -/
def setStatus (now : String) (status : ℤ) (r : TokenRow) : TokenRow :=
  { r with status := status, updatedAt := now }

theorem key_setStatus (now : String) (status : ℤ) (r : TokenRow) :
    key (r.setStatus now status) = key r := rfl

/-- `remain_quota >= amount`. -/
def affords (amount : ℤ) (r : TokenRow) : Bool := r.remainQuota ≥ amount

end TokenRow

namespace Db

/-- Adjust the user layer where `enough` holds. -/
def addUserUsed (now : String) (userId delta : ℤ) (enough : UserRow → Bool) (db : Db) : Db :=
  { db with
    users := db.users.update (fun r => key r == userId && enough r) (UserRow.addUsed now delta)
      (UserRow.key_addUsed now delta) }

/-- Adjust the token layer where `enough` holds. -/
def addTokenUsed (now : String) (tokenId delta : ℤ) (enough : TokenRow → Bool) (db : Db) : Db :=
  { db with
    tokens := db.tokens.update (fun r => key r == tokenId && enough r) (TokenRow.addUsed now delta)
      (TokenRow.key_addUsed now delta) }

end Db

namespace StorageAdapter

/-- `UserRepo::get_user_by_id`. -/
def getUserById (userId : ℤ) (db : Db) : Option UserConfig :=
  (db.users.find? userId).map UserRow.toUserConfig

/-- `TokenRepo::get_token_by_id`. -/
def getTokenById (tokenId : ℤ) (db : Db) : Option TokenConfig :=
  (db.tokens.find? tokenId).map TokenRow.toTokenConfig

def getUserQuota (userId : ℤ) (db : Db) : ProxyResult (Option ℤ) :=
  .ok ((getUserById userId db).map fun u => u.quota - u.usedQuota)

def getTokenRemainQuota (tokenId : ℤ) (db : Db) : ProxyResult (Option ℤ) :=
  .ok ((db.tokens.find? tokenId).map fun r => r.remainQuota)

def getTokenUnlimited (tokenId : ℤ) (db : Db) : ProxyResult (Option Bool) :=
  .ok ((getTokenById tokenId db).map fun t => t.unlimitedQuota)

/-- `TokenRepo::update_status`. -/
def updateTokenStatus (now : String) (tokenId status : ℤ) (db : Db) : ProxyResult Unit × Db :=
  (.ok (), { db with
    tokens := db.tokens.update (fun r => key r == tokenId) (TokenRow.setStatus now status)
      (TokenRow.key_setStatus now status) })

/-- One transaction: check and deduct the user layer, then the token layer of a limited token. A
layer that cannot afford the amount rolls the transaction back. -/
def preChargeAtomic (now : String) (userId tokenId amount : ℤ) (tokenUnlimited : Bool) (db : Db) :
    ProxyResult Unit × Db :=
  let tx := db.addUserUsed now userId amount (UserRow.affords amount)
  if db.users.count (fun r => key r == userId && r.affords amount) = 0 then
    (.error (.config s!"insufficient user quota: user_id={userId} needed={amount}"), db)
  else if tokenUnlimited then (.ok (), tx)
  else if tx.tokens.count (fun r => key r == tokenId && r.affords amount) = 0 then
    (.error (.config s!"insufficient token quota: token_id={tokenId} needed={amount}"), db)
  else (.ok (), tx.addTokenUsed now tokenId amount (TokenRow.affords amount))

/-- One transaction: adjust both layers by `delta`, unconditionally. -/
def settleAtomic (now : String) (userId tokenId delta : ℤ) (tokenUnlimited : Bool) (db : Db) :
    ProxyResult Unit × Db :=
  let tx := db.addUserUsed now userId delta fun _ => true
  if tokenUnlimited then (.ok (), tx)
  else (.ok (), tx.addTokenUsed now tokenId delta fun _ => true)

/-- One transaction: give `amount` back to both layers. -/
def refundAtomic (now : String) (userId tokenId amount : ℤ) (tokenUnlimited : Bool) (db : Db) :
    ProxyResult Unit × Db :=
  let tx := db.addUserUsed now userId (-amount) fun _ => true
  if tokenUnlimited then (.ok (), tx)
  else (.ok (), tx.addTokenUsed now tokenId (-amount) fun _ => true)

end StorageAdapter

open StorageAdapter in
/-- The reply of a call, and the database it leaves. -/
def BillingReq.answer (now : String) (db : Db) : (q : BillingReq) → q.Resp × Db
  | getUserQuota userId => (StorageAdapter.getUserQuota userId db, db)
  | getTokenRemainQuota tokenId => (StorageAdapter.getTokenRemainQuota tokenId db, db)
  | updateTokenStatus tokenId status => StorageAdapter.updateTokenStatus now tokenId status db
  | getTokenUnlimited tokenId => (StorageAdapter.getTokenUnlimited tokenId db, db)
  | preChargeAtomic userId tokenId amount unlimited =>
    StorageAdapter.preChargeAtomic now userId tokenId amount unlimited db
  | settleAtomic userId tokenId delta unlimited =>
    StorageAdapter.settleAtomic now userId tokenId delta unlimited db
  | refundAtomic userId tokenId amount unlimited =>
    StorageAdapter.refundAtomic now userId tokenId amount unlimited db

/-! ### Calls as charges -/

namespace Db

/-- Both layers moved by a charge. -/
def applyCharge (now : String) (c : Charge) (db : Db) : Db :=
  let tx := db.addUserUsed now c.userId c.amount fun _ => true
  if c.tokenUnlimited then tx else tx.addTokenUsed now c.tokenId c.amount fun _ => true

/-- The accounts with the status of one token set. -/
def setTokenStatus (now : String) (tokenId status : ℤ) (db : Db) : Db :=
  (StorageAdapter.updateTokenStatus now tokenId status db).2

variable {now : String} {db : Db}

/-- The user layer after a charge. -/
theorem find?_users_applyCharge (c : Charge) (u : ℤ) :
    (db.applyCharge now c).users.find? u = (db.users.find? u).map fun r =>
      if r.id == c.userId then r.addUsed now c.amount else r := by
  have : (db.applyCharge now c).users = (db.addUserUsed now c.userId c.amount fun _ => true).users
      := by
    simp only [applyCharge]
    split <;> rfl
  rw [this, addUserUsed, Table.find?_update]
  simp [key]

/-- The token layer after a charge. -/
theorem find?_tokens_applyCharge (c : Charge) (k : ℤ) :
    (db.applyCharge now c).tokens.find? k = (db.tokens.find? k).map fun r =>
      if r.id == c.tokenId && !c.tokenUnlimited then r.addUsed now c.amount else r := by
  cases hc : c.tokenUnlimited with
  | true =>
    simp only [applyCharge, hc, if_true, Bool.not_true, Bool.and_false, Bool.false_eq_true,
      if_false]
    exact Option.map_id'.symm
  | false =>
    simp only [applyCharge, hc, Bool.false_eq_true, if_false, addTokenUsed, Bool.not_false]
    exact Table.find?_update _ _ _ (TokenRow.key_addUsed now c.amount) k

@[simp] theorem find?_users_setTokenStatus (k status u : ℤ) :
    (db.setTokenStatus now k status).users.find? u = db.users.find? u := rfl

theorem find?_tokens_setTokenStatus (k' status k : ℤ) :
    (db.setTokenStatus now k' status).tokens.find? k = (db.tokens.find? k).map fun r =>
      if r.id == k' then r.setStatus now status else r :=
  Table.find?_update _ _ _ (TokenRow.key_setStatus now status) k

/-- Both layers of a call can afford it. -/
def Affords (db : Db) : BillingReq → Prop
  | .preChargeAtomic userId tokenId amount unlimited =>
    (∃ r, db.users.find? userId = some r ∧ amount ≤ r.quota - r.usedQuota) ∧
      (unlimited = false → ∃ r, db.tokens.find? tokenId = some r ∧ amount ≤ r.remainQuota)
  | _ => True

end Db

namespace StorageAdapter

theorem exists_affords {ρ : Type} [Keyed ρ ℤ] {T : Table ρ} {k : ℤ} {g : ρ → Bool}
    (h : T.count (fun r => key r == k && g r) ≠ 0) : ∃ r, T.find? k = some r ∧ g r = true := by
  by_contra hno
  push Not at hno
  exact h ((T.count_eq_zero_iff k g).mpr fun r hr => by simpa using hno r hr)

/-- A pre-charge that commits is a charge both layers can afford; otherwise it changes nothing. -/
theorem preChargeAtomic_cases (now : String) (db : Db) (userId tokenId amount : ℤ)
    (unlimited : Bool) :
    (preChargeAtomic now userId tokenId amount unlimited db =
        (.ok (), db.applyCharge now ⟨userId, tokenId, amount, unlimited⟩) ∧
      db.Affords (.preChargeAtomic userId tokenId amount unlimited)) ∨
    ∃ e, preChargeAtomic now userId tokenId amount unlimited db = (.error e, db) := by
  simp only [preChargeAtomic]
  split
  · exact .inr ⟨_, rfl⟩
  · rename_i huser
    obtain ⟨r, hr, haff⟩ := exists_affords huser
    have hr : ∃ r, db.users.find? userId = some r ∧ amount ≤ r.quota - r.usedQuota :=
      ⟨r, hr, by simpa [UserRow.affords] using haff⟩
    have htx : db.addUserUsed now userId amount (UserRow.affords amount) =
        db.addUserUsed now userId amount fun _ => true := by
      simp only [Db.addUserUsed]
      rw [Table.update_of_count huser]
    split
    · rename_i hun
      refine .inl ⟨?_, hr, fun hlim => ?_⟩
      · simp [Db.applyCharge, hun, htx]
      · simp [hlim] at hun
    · rename_i hlim
      split
      · exact .inr ⟨_, rfl⟩
      · rename_i htoken
        obtain ⟨r', hr', haff'⟩ := exists_affords htoken
        refine .inl ⟨?_, hr, fun _ => ⟨r', hr', by simpa [TokenRow.affords] using haff'⟩⟩
        rw [htx] at htoken
        simp only [Db.applyCharge, hlim, htx, Db.addTokenUsed, Bool.false_eq_true, if_false,
          Table.update_of_count htoken]

end StorageAdapter

namespace BillingReq

variable {now : String} {db db' : Db} {q : BillingReq} {r : q.Resp}

theorem answer_settleAtomic (now : String) (db : Db) (u k delta : ℤ) (unlimited : Bool) :
    (settleAtomic u k delta unlimited).answer now db =
      (.ok (), db.applyCharge now ⟨u, k, delta, unlimited⟩) := by
  cases unlimited <;> rfl

theorem answer_refundAtomic (now : String) (db : Db) (u k amount : ℤ) (unlimited : Bool) :
    (refundAtomic u k amount unlimited).answer now db =
      (.ok (), db.applyCharge now ⟨u, k, -amount, unlimited⟩) := by
  cases unlimited <;> rfl

/-- What a call can do: apply its charge, set a status, or leave the database alone. -/
theorem answer_cases (h : q.answer now db = (r, db')) :
    (∃ c, chargeOf ⟨q, r⟩ = some c ∧ db' = db.applyCharge now c ∧ db.Affords q) ∨
    (chargeOf ⟨q, r⟩ = none ∧
      ((∃ k s, q = .updateTokenStatus k s ∧ db' = db.setTokenStatus now k s) ∨ db' = db)) := by
  cases q with
  | getUserQuota u => cases h; exact .inr ⟨rfl, .inr rfl⟩
  | getTokenRemainQuota k => cases h; exact .inr ⟨rfl, .inr rfl⟩
  | getTokenUnlimited k => cases h; exact .inr ⟨rfl, .inr rfl⟩
  | updateTokenStatus k s => cases h; exact .inr ⟨rfl, .inl ⟨k, s, rfl, rfl⟩⟩
  | preChargeAtomic u k amount unlimited =>
    rcases StorageAdapter.preChargeAtomic_cases now db u k amount unlimited with
      ⟨heq, haff⟩ | ⟨e, heq⟩
    · obtain ⟨rfl, rfl⟩ := Prod.mk.inj (heq.symm.trans h)
      exact .inl ⟨_, rfl, rfl, haff⟩
    · obtain ⟨rfl, rfl⟩ := Prod.mk.inj (heq.symm.trans h)
      exact .inr ⟨rfl, .inr rfl⟩
  | settleAtomic u k delta unlimited =>
    obtain ⟨rfl, rfl⟩ := Prod.mk.inj ((answer_settleAtomic now db u k delta unlimited).symm.trans h)
    exact .inl ⟨_, rfl, rfl, trivial⟩
  | refundAtomic u k amount unlimited =>
    obtain ⟨rfl, rfl⟩ :=
      Prod.mk.inj ((answer_refundAtomic now db u k amount unlimited).symm.trans h)
    exact .inl ⟨_, rfl, rfl, trivial⟩

/-- A pre-charge fails with a message about the quota. -/
theorem preChargeAtomic_error {u k amount : ℤ} {unlimited : Bool} {e : ProxyError}
    (h : (StorageAdapter.preChargeAtomic now u k amount unlimited db).1 = .error e) :
    ∃ msg, e = .config msg := by
  rw [StorageAdapter.preChargeAtomic] at h
  split at h
  · cases h
    exact ⟨_, rfl⟩
  · split at h
    · cases h
    · split at h
      · cases h
        exact ⟨_, rfl⟩
      · cases h

/-- The adapter fails a pre-charge only; the other calls always succeed. -/
theorem answer_ne_failure (hq : q.Infallible) (h : q.answer now db = (r, db')) (e : ProxyError) :
    r ≠ q.failure e := by
  rintro rfl
  cases q with
  | preChargeAtomic u k amount unlimited => exact hq
  | settleAtomic u k delta unlimited => cases unlimited <;> cases h
  | refundAtomic u k amount unlimited => cases unlimited <;> cases h
  | _ => cases h

end BillingReq

/-! ### The accounts across calls -/

/-- The row `r'` is `r` after `d` has been charged to the user. -/
structure UserRow.Charged (d : ℤ) (r r' : UserRow) : Prop where
  used : r'.usedQuota = r.usedQuota + d
  quota : r'.quota = r.quota

/-- The row `r'` is `r` after `d` has been charged to the token, its status aside. -/
structure TokenRow.Charged (d : ℤ) (r r' : TokenRow) : Prop where
  remain : r'.remainQuota = r.remainQuota - d
  used : r'.usedQuota = r.usedQuota + d
  unlimited : r'.unlimitedQuota = r.unlimitedQuota

theorem UserRow.Charged.refl (o : Option UserRow) : Option.Rel (Charged 0) o o := by
  cases o with
  | none => exact .none
  | some r => exact .some ⟨(add_zero _).symm, rfl⟩

theorem TokenRow.Charged.refl (o : Option TokenRow) : Option.Rel (Charged 0) o o := by
  cases o with
  | none => exact .none
  | some r => exact .some ⟨(sub_zero _).symm, (add_zero _).symm, rfl⟩

theorem UserRow.Charged.trans {d d' : ℤ} {a b c : Option UserRow}
    (h : Option.Rel (Charged d) a b) (h' : Option.Rel (Charged d') b c) :
    Option.Rel (Charged (d + d')) a c := by
  cases h with
  | none => cases h'; exact .none
  | some h => cases h' with
    | some h' => exact .some ⟨by rw [h'.used, h.used]; omega, h'.quota.trans h.quota⟩

theorem TokenRow.Charged.trans {d d' : ℤ} {a b c : Option TokenRow}
    (h : Option.Rel (Charged d) a b) (h' : Option.Rel (Charged d') b c) :
    Option.Rel (Charged (d + d')) a c := by
  cases h with
  | none => cases h'; exact .none
  | some h => cases h' with
    | some h' => exact .some ⟨by rw [h'.remain, h.remain]; omega,
        by rw [h'.used, h.used]; omega, h'.unlimited.trans h.unlimited⟩

theorem rel_map {α : Type} {R : α → α → Prop} {f : α → α} {a : Option α}
    (h : ∀ x, a = some x → R x (f x)) : Option.Rel R a (a.map f) := by
  cases a with
  | none => exact .none
  | some x => exact .some (h x rfl)

theorem rel_some {α : Type} {R : α → α → Prop} {x : α} {o : Option α}
    (h : Option.Rel R (some x) o) : ∃ y, o = some y ∧ R x y := by
  cases h with
  | some h => exact ⟨_, rfl, h⟩

namespace Db

variable {now : String} {db db' : Db}

theorem users_applyCharge (c : Charge) (u : ℤ) :
    Option.Rel (UserRow.Charged (c.onUser u)) (db.users.find? u)
      ((db.applyCharge now c).users.find? u) := by
  rw [find?_users_applyCharge]
  refine rel_map fun r hr => ?_
  have hid : r.id = u := Table.key_of_find? hr
  by_cases hc : c.userId = u
  · simp only [hid, hc, beq_self_eq_true, if_true]
    exact ⟨by simp [UserRow.addUsed, Charge.onUser, hc], rfl⟩
  · have : (r.id == c.userId) = false := by simpa [hid] using Ne.symm hc
    simp only [this, Bool.false_eq_true, if_false]
    exact ⟨by simp [Charge.onUser, hc], rfl⟩

theorem tokens_applyCharge (c : Charge) (k : ℤ) :
    Option.Rel (TokenRow.Charged (c.onToken k)) (db.tokens.find? k)
      ((db.applyCharge now c).tokens.find? k) := by
  rw [find?_tokens_applyCharge]
  refine rel_map fun r hr => ?_
  have hid : r.id = k := Table.key_of_find? hr
  by_cases hc : c.tokenId = k ∧ c.tokenUnlimited = false
  · have : (r.id == c.tokenId && !c.tokenUnlimited) = true := by simp [hid, hc.1, hc.2]
    simp only [this, if_true]
    constructor <;> simp [TokenRow.addUsed, Charge.onToken, hc]
  · have : (r.id == c.tokenId && !c.tokenUnlimited) = false := by
      rw [hid, Bool.eq_false_iff]
      rintro h
      simp only [Bool.and_eq_true, beq_iff_eq, Bool.not_eq_true'] at h
      exact hc ⟨h.1.symm, h.2⟩
    simp only [this, Bool.false_eq_true, if_false]
    constructor <;> simp [Charge.onToken, hc]

variable {q : BillingReq} {r : q.Resp}

/-- **The user layer.** A call moves a user's used quota by what it charges the user. -/
theorem users_answer (h : q.answer now db = (r, db')) (u : ℤ) :
    Option.Rel (UserRow.Charged (charged (Charge.onUser u) [⟨q, r⟩])) (db.users.find? u)
      (db'.users.find? u) := by
  have hsame := UserRow.Charged.refl (db.users.find? u)
  rcases BillingReq.answer_cases h with ⟨c, hc, rfl, -⟩ | ⟨hc, ⟨k, s, -, rfl⟩ | rfl⟩
  · simpa [charged, hc] using users_applyCharge c u
  · simpa [charged, hc] using hsame
  · simpa [charged, hc] using hsame

/-- **The token layer.** A call moves a token's quotas by what it charges the token. -/
theorem tokens_answer (h : q.answer now db = (r, db')) (k : ℤ) :
    Option.Rel (TokenRow.Charged (charged (Charge.onToken k) [⟨q, r⟩])) (db.tokens.find? k)
      (db'.tokens.find? k) := by
  rcases BillingReq.answer_cases h with ⟨c, hc, rfl, -⟩ | ⟨hc, ⟨k', s, -, rfl⟩ | rfl⟩
  · simpa [charged, hc] using tokens_applyCharge c k
  · rw [find?_tokens_setTokenStatus]
    refine rel_map fun r _ => ?_
    split <;> constructor <;> simp [charged, hc, TokenRow.setStatus]
  · simpa [charged, hc] using TokenRow.Charged.refl (db'.tokens.find? k)

omit q r in
/-- What the adapter says of a token is what its row says. -/
theorem unlimited_answer {k : ℤ} {unlimited : Bool}
    (h : (BillingReq.getTokenUnlimited k).answer now db = (.ok (some unlimited), db')) :
    ∃ r, db.tokens.find? k = some r ∧ r.unlimitedQuota = unlimited := by
  have h : StorageAdapter.getTokenUnlimited k db = .ok (some unlimited) := (Prod.mk.inj h).1
  simp only [StorageAdapter.getTokenUnlimited, StorageAdapter.getTokenById, Except.ok.injEq,
    Option.map_eq_some_iff] at h
  obtain ⟨_, ⟨r, hr, rfl⟩, hflag⟩ := h
  exact ⟨r, hr, hflag⟩

end Db

end Chennix
