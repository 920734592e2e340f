import Chennix.Foundations.Unwinding
import Chennix.Server.Reports

/-!
# What users learn of each other

The pages of a user show the user's own tokens and logs. Of other users' tokens they give away that
an id or a key is taken, and who owns the id; the rest of those tokens, and other users' logs, may
be anything. So two states that differ in these only are alike to the user, whatever is requested.

Usage logs are read by token where the statistics of a token are asked for, without regard to the
user in them. That they are the user's own follows from the owner of the token, if every usage log
names the owner of its token.

## Main definitions

* `ReportDb.LogsOwned` — every usage log names the owner of its token
* `ReportDb.foreignTokens` — the tokens of other users
* `ReportDb.SameFor` — two states that differ in what is no concern of a user

## Main results

* `OwnChange.foreign`, `OwnChange.owned` — what a request of the user does to the tokens
* `UserRequest.serve_alike` — one request, to two states that are alike
* `UserRequest.isolated` — all requests
-/

namespace Chennix

open Foundations AdminM Responder

/-- What a user may learn of a token by asking for its id or trying its key. Their own tokens they
see whole. -/
def TokenRow.seenBy (userId : ℤ) (t : TokenRow) : ℤ × String × Option TokenRow :=
  (t.userId, t.key, if t.userId = userId then some t else none)

namespace TokenRow

variable {userId : ℤ} {t t' : TokenRow}

theorem userId_of_seenBy (h : t.seenBy userId = t'.seenBy userId) : t.userId = t'.userId :=
  congrArg Prod.fst h

theorem key_of_seenBy (h : t.seenBy userId = t'.seenBy userId) : t.key = t'.key :=
  congrArg (fun seen => seen.2.1) h

/-- What looks like a token of the user is that token. -/
theorem eq_of_seenBy (h : t.seenBy userId = t'.seenBy userId) (hown : t.userId = userId) :
    t = t' := by
  have hown' : t'.userId = userId := (userId_of_seenBy h).symm.trans hown
  have hrow := congrArg (fun seen => seen.2.2) h
  simp only [seenBy, if_pos hown, if_pos hown'] at hrow
  exact Option.some.inj hrow

end TokenRow

namespace ReportDb

/-- Every usage log names the owner of its token. -/
def LogsOwned (s : ReportDb) : Prop :=
  ∀ l ∈ s.usageLogs.rows, ∀ id ∈ l.tokenId, ∃ t ∈ s.tokens.find? id, l.userId = some t.userId

instance (s : ReportDb) : Decidable s.LogsOwned :=
  inferInstanceAs (Decidable (∀ l ∈ s.usageLogs.rows, ∀ id ∈ l.tokenId,
    ∃ t ∈ s.tokens.find? id, l.userId = some t.userId))

/-- The tokens of other users. -/
def foreignTokens (userId : ℤ) (s : ReportDb) : Set TokenRow :=
  {t | t ∈ s.tokens.rows ∧ t.userId ≠ userId}

/-- The two states have the same tokens with the same owners and keys, and the same rows of the
user. They differ in other columns of other users' tokens, and in other users' logs. -/
structure SameFor (userId : ℤ) (s s' : ReportDb) : Prop where
  tokens : Table.Alike (TokenRow.seenBy userId) s.tokens s'.tokens
  usageLogs : ∀ l, l.userId = some userId → (l ∈ s.fullLogs.rows ↔ l ∈ s'.fullLogs.rows)
  requestLogs : ∀ l, l.userId = some userId → (l ∈ s.requestLogs.rows ↔ l ∈ s'.requestLogs.rows)
  users : s.users = s'.users
  channels : s.channels = s'.channels
  channelKeys : s.channelKeys = s'.channelKeys
  models : s.models = s'.models
  modelChannels : s.modelChannels = s'.modelChannels
  discoveredModels : s.discoveredModels = s'.discoveredModels

theorem LogsOwned.userId_eq {s : ReportDb} (hs : s.LogsOwned) {l : UsageLog} {id : ℤ} {t : TokenRow}
    (hl : l ∈ s.fullLogs.rows) (hid : l.tokenId = some id) (ht : s.tokens.find? id = some t) :
    l.userId = some t.userId := by
  obtain ⟨r, hr, rfl⟩ := mem_fullLogs.mp hl
  obtain ⟨t', ht', howner⟩ := hs r hr id hid
  cases ht.symm.trans ht'
  exact howner

namespace SameFor

variable {userId : ℤ} {s s' : ReportDb}

theorem symm (h : SameFor userId s s') : SameFor userId s' s where
  tokens := h.tokens.symm
  usageLogs l hl := (h.usageLogs l hl).symm
  requestLogs l hl := (h.requestLogs l hl).symm
  users := h.users.symm
  channels := h.channels.symm
  channelKeys := h.channelKeys.symm
  models := h.models.symm
  modelChannels := h.modelChannels.symm
  discoveredModels := h.discoveredModels.symm

theorem mem_tokens (h : SameFor userId s s') {t : TokenRow} (hown : t.userId = userId)
    (ht : t ∈ s.tokens.rows) : t ∈ s'.tokens.rows := by
  obtain ⟨t', ht', _, hview⟩ := h.tokens.exists_mem ht
  exact TokenRow.eq_of_seenBy hview.symm hown ▸ ht'

variable {id : ℤ} {t : TokenRow}

/-- The usage logs of a token of the user are the user's. -/
theorem mem_fullLogs (h : SameFor userId s s') (hs : s.LogsOwned)
    (ht : s.tokens.find? id = some t) (hown : t.userId = userId) {l : UsageLog}
    (hid : l.tokenId = some id) (hl : l ∈ s.fullLogs.rows) : l ∈ s'.fullLogs.rows :=
  (h.usageLogs l ((hs.userId_eq hl hid ht).trans (congrArg some hown))).mp hl

theorem logged (h : SameFor userId s s') (hs : s.LogsOwned) (ht : s.tokens.find? id = some t)
    (hown : t.userId = userId) (hlog : s.usageLogs.rows.any fun l => l.tokenId == some id) :
    s'.usageLogs.rows.any fun l => l.tokenId == some id := by
  obtain ⟨r, hr, hid⟩ := List.any_eq_true.mp hlog
  have hl : s.fullLog r ∈ s.fullLogs.rows := List.mem_map_of_mem hr
  obtain ⟨r', hr', heq⟩ := ReportDb.mem_fullLogs.mp
    (h.mem_fullLogs hs ht hown (beq_iff_eq.mp hid) hl)
  have hid' : r'.tokenId = r.tokenId := congrArg (fun l => l.tokenId) heq
  exact List.any_eq_true.mpr ⟨r', hr', hid'.symm ▸ hid⟩

end SameFor

end ReportDb

open ReportDb

/-! ### One state -/

namespace OwnChange

variable {userId : ℤ} {s : ReportDb} {T : Table TokenRow}

/-- Other users' tokens stay as they are. -/
theorem foreign (h : OwnChange userId s.toDb T) :
    foreignTokens userId { s with tokens := T } = foreignTokens userId s := by
  ext r
  show r ∈ T.rows ∧ r.userId ≠ userId ↔ r ∈ s.tokens.rows ∧ r.userId ≠ userId
  refine and_congr_left fun hne => ?_
  cases h with
  | none => exact Iff.rfl
  | insert hown =>
    rw [Table.insertNew, List.mem_append, List.mem_singleton]
    refine or_iff_left fun hr => ?_
    rw [hr, hown] at hne
    exact hne rfl
  | @update id t f hf ht hown howner =>
    -- The row that is changed is the user's own, before and after.
    have hsel : ∀ r₀ ∈ s.tokens.rows, r₀.id = id → r₀.userId = userId := by
      intro r₀ hr₀ hid
      cases ht.symm.trans (Table.find?_eq_some_iff.mpr ⟨hr₀, hid⟩)
      exact hown
    rw [Table.update, List.mem_map]
    constructor
    · rintro ⟨r₀, hr₀, hr⟩
      by_cases hid : r₀.id = id
      · rw [if_pos (beq_iff_eq.mpr hid)] at hr
        rw [← hr, howner, hsel r₀ hr₀ hid] at hne
        exact absurd rfl hne
      · rw [if_neg (by simpa using hid)] at hr
        exact hr ▸ hr₀
    · intro hr
      refine ⟨r, hr, if_neg ?_⟩
      intro hid
      exact hne (hsel r hr (beq_iff_eq.mp hid))
  | @delete id t ht hown hfree =>
    rw [Table.delete, List.mem_filter]
    refine and_iff_left_of_imp fun hr => ?_
    rw [Bool.not_eq_true', beq_eq_false_iff_ne]
    intro hid
    cases ht.symm.trans (Table.find?_eq_some_iff.mpr ⟨hr, hid⟩)
    exact hne hown

/-- Usage logs name the owners of their tokens as before. -/
theorem owned (h : OwnChange userId s.toDb T) (hs : s.LogsOwned) :
    LogsOwned { s with tokens := T } := by
  intro l hl id hid
  obtain ⟨t, ht, howner⟩ := hs l hl id hid
  show ∃ t ∈ T.find? id, l.userId = some t.userId
  cases h with
  | none => exact ⟨t, ht, howner⟩
  | insert hown =>
    have hused : id ≠ s.tokens.nextId := by
      have := Table.key_lt_nextId (Table.mem_of_find? ht)
      rw [Table.key_of_find? ht] at this
      exact this.ne
    rw [Table.find?_insertNew, if_neg hused]
    exact ⟨t, ht, howner⟩
  | @update id' _ f hf _ _ hsame =>
    have hkeep : (if t.id == id' then f t else t).userId = t.userId := by
      split
      · exact hsame t
      · rfl
    rw [Table.find?_update, ht]
    exact ⟨_, rfl, howner.trans (congrArg some hkeep.symm)⟩
  | @delete id' t' ht' hown hfree =>
    have hne : t.id ≠ id' := by
      rintro rfl
      have hkey : t.id = id := Table.key_of_find? ht
      exact hfree l hl (hkey ▸ hid)
    rw [Table.find?_delete, ht, Option.filter_some, if_pos (by simpa using hne)]
    exact ⟨t, rfl, howner⟩

end OwnChange

/-! ### Two states -/

/-- The statement fails alike in both databases, or succeeds alike and leaves tokens that look the
same to the user. -/
def WritesAlike {α : Type} (userId : ℤ) (body : AdminM α) (db db' : Db) : Prop :=
  (∃ e, body db = .error e ∧ body db' = .error e) ∨
    ∃ a T T', body db = .ok (a, { db with tokens := T }) ∧
      body db' = .ok (a, { db' with tokens := T' }) ∧ Table.Alike (TokenRow.seenBy userId) T T'

section Handlers

variable {user : UserConfig} {dates : SqlDates} {readLimits : String → Option (List String)}
  {s s' : ReportDb}

/-- The check of the owner comes out the same, and behind it is the same token. -/
theorem ownToken_alike (huser : user.isAdmin = false)
    (h : Table.Alike (TokenRow.seenBy user.id) s.tokens s'.tokens) (id : ℤ)
    (missing foreign : String) :
    (∃ e, ownToken user id missing foreign s.toDb = .error e ∧
      ownToken user id missing foreign s'.toDb = .error e) ∨
    ownToken user id missing foreign s.toDb = .ok ((), s.toDb) ∧
      ownToken user id missing foreign s'.toDb = .ok ((), s'.toDb) ∧
      ∃ t, t.userId = user.id ∧ s.tokens.find? id = some t ∧ s'.tokens.find? id = some t := by
  rcases h.cases id with ⟨hnone, hnone'⟩ | ⟨t, t', ht, ht', hview⟩
  · exact .inl ⟨_, ownToken_of_none huser hnone, ownToken_of_none huser hnone'⟩
  · rw [ownToken_of_some huser ht, ownToken_of_some huser ht', ← TokenRow.userId_of_seenBy hview]
    by_cases hown : t.userId = user.id
    · rw [if_pos hown, if_pos hown]
      cases TokenRow.eq_of_seenBy hview hown
      exact .inr ⟨rfl, rfl, t, hown, ht, ht'⟩
    · rw [if_neg hown, if_neg hown]
      exact .inl ⟨_, rfl, rfl⟩

variable (h : SameFor user.id s s')
include h

/-- That the key is taken shows, whoever has it. -/
theorem createTokenHandler_alike (now : Calendar.Instant) (queryUserId : Option ℤ)
    (payload : CreateTokenRequest) (uuid : String) :
    WritesAlike user.id (createTokenHandler now readLimits user queryUserId payload uuid) s.toDb
      s'.toDb := by
  have hstmt : ∀ db, createTokenHandler now readLimits user queryUserId payload uuid db =
      (TokenRepo.createTokenFull readLimits (nowIso8601 now) (tokenOwner user queryUserId payload)
        (payload.key.getD (generatedKey uuid)) payload.toTokenSettings db).mapError .ofProxy :=
    fun _ => rfl
  have hkey : (s.tokens.rows.any fun t => t.key == payload.key.getD (generatedKey uuid)) =
      s'.tokens.rows.any fun t => t.key == payload.key.getD (generatedKey uuid) :=
    h.tokens.any fun t t' _ hview => by rw [TokenRow.key_of_seenBy hview]
  rw [WritesAlike, hstmt, hstmt, TokenRepo.createTokenFull, TokenRepo.createTokenFull, ← hkey,
    ← h.users, ← h.tokens.nextId]
  split
  · exact .inl ⟨_, rfl, rfl⟩
  · split
    · exact .inl ⟨_, rfl, rfl⟩
    · exact .inr ⟨_, _, _, rfl, rfl, h.tokens.insertNew⟩

theorem updateTokenHandler_alike (huser : user.isAdmin = false) (now : Calendar.Instant) (id : ℤ)
    (payload : UpdateTokenRequest) :
    WritesAlike user.id (updateTokenHandler now readLimits user id payload) s.toDb s'.toDb := by
  rw [updateTokenHandler]
  rcases ownToken_alike huser h.tokens id s!"token {id} not found"
    "you can only modify your own tokens" with ⟨e, he, he'⟩ | ⟨hok, hok', t, _, ht, ht'⟩
  · exact .inl ⟨e, Transaction.bind_of_error he, Transaction.bind_of_error he'⟩
  · refine .inr ⟨(), _, _, Transaction.bind_of_ok hok, Transaction.bind_of_ok hok', ?_⟩
    refine h.tokens.update (k := id) (fun r => rfl) fun r r' hr hr' => ?_
    cases ht.symm.trans hr
    cases ht'.symm.trans hr'
    rfl

/-- Whether a usage log refers to the token, which is the user's own, shows. -/
theorem deleteTokenHandler_alike (huser : user.isAdmin = false) (hs : s.LogsOwned)
    (hs' : s'.LogsOwned) (id : ℤ) :
    WritesAlike user.id (deleteTokenHandler user id) s.toDb s'.toDb := by
  have hstmt : ∀ db, (TokenRepo.deleteTokenById id : AdminM Unit) db =
      (TokenRepo.deleteTokenById id db).mapError .ofProxy := fun _ => rfl
  rw [deleteTokenHandler]
  rcases ownToken_alike huser h.tokens id s!"token {id} not found"
    "you can only delete your own tokens" with ⟨e, he, he'⟩ | ⟨hok, hok', t, hown, ht, ht'⟩
  · exact .inl ⟨e, Transaction.bind_of_error he, Transaction.bind_of_error he'⟩
  have hthere : (s.tokens.rows.any fun t => t.id == id) = s'.tokens.rows.any fun t => t.id == id :=
    h.tokens.any fun r r' hkey _ => congrArg (· == id) hkey
  have hlogged : (s.usageLogs.rows.any fun l => l.tokenId == some id) =
      s'.usageLogs.rows.any fun l => l.tokenId == some id :=
    Bool.eq_iff_iff.mpr ⟨h.logged hs ht hown, h.symm.logged hs' ht' hown⟩
  rw [WritesAlike, Transaction.bind_of_ok hok, Transaction.bind_of_ok hok', hstmt, hstmt,
    TokenRepo.deleteTokenById, TokenRepo.deleteTokenById, ← hthere, ← hlogged]
  split
  · exact .inl ⟨_, rfl, rfl⟩
  · exact .inr ⟨(), _, _, rfl, rfl, h.tokens.delete fun r r' hkey => congrArg (· == id) hkey⟩

/-! #### What is read -/

theorem listTokensHandler_alike (huser : user.isAdmin = false) (queryUserId : Option ℤ) :
    listTokensHandler user queryUserId s.toDb = listTokensHandler user queryUserId s'.toDb := by
  rw [listTokensHandler, listTokensHandler, huser, if_neg Bool.false_ne_true, TokenRepo.listTokens,
    TokenRepo.listTokens]
  have hperm : (s.tokens.rows.filter fun t => t.userId == user.id).Perm
      (s'.tokens.rows.filter fun t => t.userId == user.id) :=
    Table.filter_perm fun t hown =>
      ⟨h.mem_tokens (beq_iff_eq.mp hown), h.symm.mem_tokens (beq_iff_eq.mp hown)⟩
  refine insertionSort_congr TokenConfig.id (hperm.map _) fun c hc c' hc' hid => ?_
  obtain ⟨t, ht, rfl⟩ := List.mem_map.mp hc
  obtain ⟨t', ht', rfl⟩ := List.mem_map.mp hc'
  rw [List.inj_on_of_nodup_map s.tokens.nodup (List.mem_filter.mp ht).1 (List.mem_filter.mp ht').1
    hid]

theorem tokenUsageHandler_alike (huser : user.isAdmin = false) (hs : s.LogsOwned)
    (hs' : s'.LogsOwned) (id : ℤ) : tokenUsageHandler user id s = tokenUsageHandler user id s' := by
  rw [tokenUsageHandler, tokenUsageHandler]
  rcases ownToken_alike huser h.tokens id "token not found" "you do not own this token" with
    ⟨e, he, he'⟩ | ⟨hok, hok', t, hown, ht, ht'⟩
  · rw [he, he']
    rfl
  · have hselect : (s.fullLogs.select fun l => l.tokenId == some id) =
        s'.fullLogs.select fun l => l.tokenId == some id :=
      Table.select_congr fun l hid => ⟨h.mem_fullLogs hs ht hown (beq_iff_eq.mp hid),
        h.symm.mem_fullLogs hs' ht' hown (beq_iff_eq.mp hid)⟩
    rw [hok, hok', UsageRepo.getTokenUsageStats, UsageRepo.getTokenUsageStats, hselect]
    rfl

theorem usageHandler_alike (huser : user.isAdmin = false) (query : UsageQuery) :
    usageHandler user dates query s = usageHandler user dates query s' := by
  have hselect : ∀ start endAt : ℤ, (s.fullLogs.select
      (UsageRepo.usageSelected dates query.channelId start endAt (some user.id))) =
      s'.fullLogs.select
        (UsageRepo.usageSelected dates query.channelId start endAt (some user.id)) := by
    intro start endAt
    refine Table.select_congr fun l hl => h.usageLogs l ?_
    rw [UsageRepo.usageSelected, Bool.and_eq_true, Bool.and_eq_true] at hl
    exact beq_iff_eq.mp hl.1.1
  rw [usageHandler, usageHandler, userFilter, huser, if_neg Bool.false_ne_true,
    UsageRepo.getUsageSummary, UsageRepo.getUsageSummary, hselect, h.channels, h.models]

theorem logsHandler_alike (huser : user.isAdmin = false) (query : LogsQuery) :
    logsHandler user dates query s = logsHandler user dates query s' := by
  have hselect : ∀ start endAt : ℤ, (s.requestLogs.select (UsageRepo.requestSelected dates
      s'.channels query.channelId query.model query.statusCode start endAt (some user.id))) =
      s'.requestLogs.select (UsageRepo.requestSelected dates s'.channels query.channelId query.model
        query.statusCode start endAt (some user.id)) := by
    intro start endAt
    refine Table.select_congr fun l hl => h.requestLogs l ?_
    rw [UsageRepo.requestSelected, Bool.and_eq_true, Bool.and_eq_true, Bool.and_eq_true,
      Bool.and_eq_true] at hl
    exact beq_iff_eq.mp hl.1.1.1.1
  rw [logsHandler, logsHandler, userFilter, huser, if_neg Bool.false_ne_true,
    UsageRepo.getRequestLogs, UsageRepo.getRequestLogs, h.channels, hselect]

/-! #### Requests -/

theorem change_alike {α : Type} {body : AdminM α} (reply : α → UserReply)
    (hbody : WritesAlike user.id body s.toDb s'.toDb) :
    (s.change body reply).1 = (s'.change body reply).1 ∧
      SameFor user.id (s.change body reply).2 (s'.change body reply).2 := by
  rcases hbody with ⟨e, he, he'⟩ | ⟨a, T, T', hok, hok', hT⟩
  · rw [ReportDb.change, ReportDb.change, he, he']
    exact ⟨rfl, h⟩
  · rw [ReportDb.change, ReportDb.change, hok, hok']
    exact ⟨rfl, { h with tokens := hT }⟩

theorem read_alike {α : Type} {answer : ReportDb → AdminResult α} (reply : α → UserReply)
    (hanswer : answer s = answer s') :
    (s.read answer reply).1 = (s'.read answer reply).1 ∧
      SameFor user.id (s.read answer reply).2 (s'.read answer reply).2 := by
  rw [ReportDb.read, ReportDb.read, hanswer]
  exact ⟨rfl, h⟩

end Handlers

namespace UserRequest

variable (dates : SqlDates) (readLimits : String → Option (List String)) {user : UserConfig}
  {s s' : ReportDb}

/-- **One request**, to two states that are alike to the user. -/
theorem serve_alike (huser : user.isAdmin = false) (hs : s.LogsOwned) (hs' : s'.LogsOwned)
    (h : SameFor user.id s s') (r : TimedRequest) :
    (serve user dates readLimits r s).1 = (serve user dates readLimits r s').1 ∧
      SameFor user.id (serve user dates readLimits r s).2 (serve user dates readLimits r s').2 := by
  obtain ⟨now, r⟩ := r
  cases r with
  | listTokens userId =>
    exact read_alike h _ (congrArg Except.ok (listTokensHandler_alike h huser userId))
  | createToken userId payload uuid =>
    exact change_alike h _ (createTokenHandler_alike h now userId payload uuid)
  | updateToken id payload =>
    exact change_alike h _ (updateTokenHandler_alike h huser now id payload)
  | deleteToken id => exact change_alike h _ (deleteTokenHandler_alike h huser hs hs' id)
  | tokenUsage id => exact read_alike h _ (tokenUsageHandler_alike h huser hs hs' id)
  | usage query => exact read_alike h _ (usageHandler_alike h huser query)
  | logs query => exact read_alike h _ (logsHandler_alike h huser query)

theorem serve_logsOwned (huser : user.isAdmin = false) (hs : s.LogsOwned) (r : TimedRequest) :
    (serve user dates readLimits r s).2.LogsOwned := by
  obtain ⟨T, hT, hchange⟩ := serve_ownChange dates readLimits huser r s
  rw [hT]
  exact hchange.owned hs

theorem foreignTokens_serve (huser : user.isAdmin = false) (r : TimedRequest) (s : ReportDb) :
    foreignTokens user.id (serve user dates readLimits r s).2 = foreignTokens user.id s := by
  obtain ⟨T, hT, hchange⟩ := serve_ownChange dates readLimits huser r s
  rw [hT]
  exact hchange.foreign

/-- The states a user cannot tell apart, if their usage logs name the owners of the tokens. -/
theorem unwinds (huser : user.isAdmin = false) :
    Unwinds (serve user dates readLimits)
      fun s s' => s.LogsOwned ∧ s'.LogsOwned ∧ SameFor user.id s s' where
  answers := fun ⟨hs, hs', h⟩ => (serve_alike dates readLimits huser hs hs' h _).1
  next := fun ⟨hs, hs', h⟩ => ⟨serve_logsOwned dates readLimits huser hs _,
    serve_logsOwned dates readLimits huser hs' _, (serve_alike dates readLimits huser hs hs' h _).2⟩

/-- The answers to a list of requests of the user, and the database in the end. -/
def serveAll (user : UserConfig) (requests : List TimedRequest) (s : ReportDb) :
    List (AdminResult UserReply) × ReportDb :=
  Responder.serve (serve user dates readLimits) requests s

/-- **Isolation.** Whatever a user requests who is no administrator, other users' tokens stay as
they are, and what is answered does not depend on the rest of these tokens or on other users'
logs. -/
theorem isolated (huser : user.isAdmin = false) (requests : List TimedRequest)
    (hs : s.LogsOwned) :
    foreignTokens user.id (serveAll dates readLimits user requests s).2 =
        foreignTokens user.id s ∧
      ∀ s', s'.LogsOwned → SameFor user.id s s' →
        (serveAll dates readLimits user requests s).1 =
          (serveAll dates readLimits user requests s').1 :=
  ⟨serve_keeps (foreignTokens_serve dates readLimits huser) requests s,
    fun _ hs' h => ((unwinds dates readLimits huser).serve requests ⟨hs, hs', h⟩).1⟩

/-! ### A sample -/

def sampleAlice : UserConfig := ⟨1, "alice", 1, 1, 0, 0, "default"⟩

/-- Two users with a token each; Alice has used hers. -/
def samplePages : ReportDb where
  users := ⟨[⟨sampleAlice, ""⟩, ⟨⟨2, "bob", 1, 1, 0, 0, "default"⟩, ""⟩], by decide⟩
  tokens := ⟨[.fresh 1 1 "sk-a" "", .fresh 2 2 "sk-b" ""], by decide⟩
  usageLogs := ⟨[⟨1, 1, 1, 1, some 1, some 1⟩], by decide⟩
  usageColumns := fun id => ⟨0, 10 * id, "2026-07-01T12:34:56+08:00"⟩

/-- The same, but Bob's token has been changed, and he has used it. -/
def samplePages' : ReportDb :=
  { samplePages with
    tokens := ⟨[.fresh 1 1 "sk-a" "", { TokenRow.fresh 2 2 "sk-b" "" with remainQuota := 5 }],
      by decide⟩
    usageLogs := ⟨[⟨1, 1, 1, 1, some 1, some 1⟩, ⟨2, 1, 1, 1, some 2, some 2⟩], by decide⟩ }

/-- Alice reads what she may, and tries what she may not. -/
def sampleRequests : List TimedRequest :=
  [(0, .listTokens (some 2)), (0, .tokenUsage 1), (0, .tokenUsage 2), (0, .deleteToken 1),
    (0, .deleteToken 2), (0, .usage ⟨none, none, none, none⟩),
    (0, .logs ⟨none, none, none, none, none, none, none⟩)]

theorem samplePages_sameFor : SameFor sampleAlice.id samplePages samplePages' where
  tokens id := by
    by_cases h₁ : id = 1
    · subst h₁
      rfl
    · by_cases h₂ : id = 2
      · subst h₂
        rfl
      · have hnone : ∀ T : Table TokenRow, T.rows.map key = [1, 2] → T.find? id = none := by
          intro T hT
          refine Table.find?_eq_none_iff.mpr fun t ht hid => ?_
          have hmem : id ∈ T.rows.map key := hid ▸ List.mem_map_of_mem ht
          rw [hT, List.mem_cons, List.mem_singleton] at hmem
          exact hmem.elim h₁ h₂
        rw [hnone samplePages.tokens rfl, hnone samplePages'.tokens rfl]
  usageLogs l hl := by
    rw [mem_fullLogs, mem_fullLogs]
    constructor
    · rintro ⟨r, hr, rfl⟩
      exact ⟨r, List.mem_append_left _ hr, rfl⟩
    · rintro ⟨r, hr, rfl⟩
      rcases List.mem_cons.mp hr with rfl | hr
      · exact ⟨_, List.mem_singleton_self _, rfl⟩
      · cases List.mem_singleton.mp hr
        cases hl
  requestLogs l _ := Iff.rfl
  users := rfl
  channels := rfl
  channelKeys := rfl
  models := rfl
  modelChannels := rfl
  discoveredModels := rfl

def sampleDates : SqlDates where
  datetime t := if t = "2026-07-01T12:34:56+08:00" then some "2026-07-01 04:34:56" else none
  unixepoch n := if n = 0 then some "1970-01-01 00:00:00" else none

theorem isolated_sample :
    foreignTokens 1 (serveAll sampleDates (fun _ => none) sampleAlice sampleRequests
        samplePages).2 = foreignTokens 1 samplePages ∧
      (serveAll sampleDates (fun _ => none) sampleAlice sampleRequests samplePages).1 =
        (serveAll sampleDates (fun _ => none) sampleAlice sampleRequests samplePages').1 := by
  have hAlice : sampleAlice.isAdmin = false := by decide
  have howned : samplePages.LogsOwned := by decide
  obtain ⟨hforeign, hanswers⟩ := isolated sampleDates (fun _ => none) hAlice sampleRequests howned
  exact ⟨hforeign, hanswers samplePages' (by decide) samplePages_sameFor⟩

end UserRequest

end Chennix
