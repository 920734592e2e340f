import Chennix.Server.Administration

/-!
# API keys of a channel

The schema lets two keys of one channel hold the same API key; the handlers look for duplicates
before they write. A new key is looked for among the keys of its channel. An updated key is looked
for among the keys of the channel that the path names, which need not be its own, and a
configuration file is imported without any look.

## Main definitions

* `Db.KeysDistinct` — no two keys of a channel hold the same API key
* `AdminStep.KeepsApart` — what a step must meet for that

## Main results

* `keysDistinct_iff` — it holds all along a run if and only if every step meets that
* `not_keysDistinct` — an update under the path of another channel
-/

namespace Chennix

open Foundations Transaction

namespace Db

/-- No two keys have both channel and API key in common. -/
def KeysDistinct (db : Db) : Prop := db.credentials.Nodup

def keyOwners (db : Db) : List ℤ := db.channelKeys.rows.map KeyConfig.channelId

def channelIds (db : Db) : List ℤ := db.channels.rows.map ChannelConfig.id

/-- Every key is of a channel that is there. -/
def KeysOwned (db : Db) : Prop := db.keyOwners ⊆ db.channelIds

end Db

namespace KeyRepo

variable {db : Db} {channelId : ℤ} {apiKey : String}

theorem countDuplicate_none :
    countDuplicateApiKeyInChannel channelId apiKey none db = 0 ↔
      (channelId, apiKey) ∉ db.credentials := by
  rw [countDuplicateApiKeyInChannel, Table.count, List.countP_eq_zero, Db.credentials,
    List.mem_map]
  simp [KeyConfig.credential]

theorem countDuplicate_some {keyId : ℤ} :
    countDuplicateApiKeyInChannel channelId apiKey (some keyId) db = 0 ↔
      ∀ k ∈ db.channelKeys.rows, k.id ≠ keyId → k.credential ≠ (channelId, apiKey) := by
  rw [countDuplicateApiKeyInChannel, Table.count, List.countP_eq_zero]
  refine forall_congr' fun k => imp_congr_right fun _ => ?_
  simp only [KeyConfig.credential, Option.all_some, Bool.and_eq_true, beq_iff_eq, bne_iff_ne,
    ne_eq, Prod.mk.injEq, not_and]
  constructor
  · intro h hid hchannel hapi
    exact h ⟨hchannel, hapi⟩ hid
  · rintro h ⟨hchannel, hapi⟩ hid
    exact h hid hchannel hapi

end KeyRepo

/-! ### Conditions -/

/-- The file names no API key twice for a channel, and none that the channel has already. -/
structure BootstrapConfig.KeysNew (config : BootstrapConfig) (db : Db) : Prop where
  nodup : (config.keys.map fun k => (k.channel, k.apiKey)).Nodup
  fresh : ∀ k ∈ config.keys, ∀ c, ChannelRepo.getChannelByName k.channel db = some c →
    KeyRepo.countDuplicateApiKeyInChannel c.id k.apiKey none db = 0

/-- An update of a key that passes the check for the channel of the path would pass it for the
channel of the key. -/
def AdminCall.ChecksOwnChannel (db : Db) : AdminCall → Prop
  | updateKey channelId keyId p => keyStatusOf p.status ≠ none →
    KeyRepo.countDuplicateApiKeyInChannel channelId p.apiKey (some keyId) db = 0 →
    ∀ k, db.channelKeys.find? keyId = some k →
      KeyRepo.countDuplicateApiKeyInChannel k.channelId p.apiKey (some keyId) db = 0
  | _ => True

/-- What a step must meet, in the database it finds. -/
def AdminStep.KeepsApart (db : Db) : AdminStep → Prop
  | importFile config => config.Importable db → config.KeysNew db
  | handle call _ => call.ChecksOwnChannel db

/-! ### Owners -/

section Owned

variable {db db' : Db}

theorem keysOwned_wrote {call : AdminCall} {now : Calendar.Instant} (h : call.Wrote now db db')
    (hI : db.KeysOwned) : db'.KeysOwned := by
  cases call with
  | createChannel p =>
    obtain ⟨id, h⟩ := h
    rw [ChannelRepo.createChannelFull_frame h]
    show db.keyOwners ⊆ List.map _ (_ ++ _)
    rw [List.map_append]
    exact List.Subset.trans hI (List.subset_append_left _ _)
  | updateChannel id p =>
    rw [ChannelRepo.updateChannel_frame h]
    show db.keyOwners ⊆ List.map ChannelConfig.id (Table.rows _)
    rw [Table.map_rows_update (f := ChannelConfig.configured p.name p.provider p.baseUrl p.group)
      _ _ _ fun _ => rfl]
    exact hI
  | deleteChannel id =>
    rcases ChannelRepo.deleteChannel_frame h with rfl | rfl
    · exact hI
    · intro owner howner
      obtain ⟨k, hk, rfl⟩ := List.mem_map.mp howner
      obtain ⟨hk, hkept⟩ := List.mem_filter.mp hk
      obtain ⟨c, hc, hid⟩ := List.mem_map.mp (hI (List.mem_map_of_mem hk))
      rw [← hid]
      exact List.mem_map_of_mem (List.mem_filter.mpr ⟨hc, by simpa [hid] using hkept⟩)
  | createKey channelId p =>
    obtain ⟨_, id, h⟩ := h
    obtain ⟨⟨c, hc⟩, row, _, hnew, rfl⟩ := KeyRepo.createKeyAutoPriority_frame h
    show List.map _ (_ ++ [_]) ⊆ _
    rw [List.map_append, List.map_singleton, (hnew _).1]
    refine List.append_subset.mpr ⟨hI, List.cons_subset.mpr ⟨?_, List.nil_subset _⟩⟩
    obtain ⟨hmem, rfl⟩ := Table.find?_eq_some_iff.mp hc
    exact List.mem_map_of_mem hmem
  | updateKey channelId keyId p =>
    obtain ⟨_, status, _, h⟩ := h
    cases h
    show (Table.rows _).map KeyConfig.channelId ⊆ db.channelIds
    rw [Table.map_rows_update (f := KeyConfig.configured p.apiKey _ p.priority _ _ status) _ _ _
      fun _ => rfl]
    exact hI
  | deleteKey channelId keyId =>
    rw [KeyRepo.deleteKey_frame h]
    exact List.Subset.trans (List.filter_sublist.map _).subset hI
  | resetKeyQuota channelId keyId =>
    cases h
    show (Table.rows _).map KeyConfig.channelId ⊆ db.channelIds
    rw [Table.map_rows_update (f := KeyConfig.withUsedQuota 0) _ _ _ fun _ => rfl]
    exact hI
  | reorderKeys channelId keyIds =>
    change KeyRepo.reorderKeys .. = _ at h
    rw [KeyRepo.reorderKeys_frame h]
    show (KeyRepo.setPriorities _ _ _).rows.map _ ⊆ db.channelIds
    rw [KeyRepo.map_setPriorities _ _ _ fun _ _ => rfl]
    exact hI
  | _ =>
    obtain ⟨_, _, _, rfl⟩ := AdminCall.Wrote.frame h id
    exact hI

/-- A row of `channels` that a key of the database is of. -/
theorem KeysOwned.exists {credential : ℤ × String} (hI : db.KeysOwned)
    (h : credential ∈ db.credentials) : ∃ c ∈ db.channels.rows, c.id = credential.1 := by
  obtain ⟨k, hk, rfl⟩ := List.mem_map.mp h
  obtain ⟨c, hc, hid⟩ := List.mem_map.mp (hI (List.mem_map_of_mem hk))
  exact ⟨c, hc, hid⟩

theorem keysOwned_importConfig (config : BootstrapConfig) :
    Keeps Db.KeysOwned (importConfig config) := by
  intro db _ db' h hI
  obtain ⟨hkeys, hfound, hfirst⟩ := importConfig_keys h
  intro owner howner
  obtain ⟨k, hk, rfl⟩ := List.mem_map.mp howner
  have hcredential : k.credential ∈ db'.credentials := List.mem_map_of_mem hk
  rw [hkeys] at hcredential
  rcases List.mem_append.mp hcredential with hold | hnew
  · obtain ⟨c, hc, hid⟩ := KeysOwned.exists hI hold
    exact List.mem_map.mpr ⟨c, hfirst.subset hc, hid⟩
  · obtain ⟨entry, hentry, heq⟩ := List.mem_map.mp hnew
    obtain ⟨c, hc⟩ := Option.isSome_iff_exists.mp (hfound entry hentry)
    refine List.mem_map.mpr ⟨c, List.mem_of_find?_eq_some hc, ?_⟩
    rw [Bootstrap.channelId, hc] at heq
    exact congrArg Prod.fst heq

end Owned

/-! ### One step -/

section Steps

variable {db db' : Db}

section Import

variable {config : BootstrapConfig}

/-- After an import the id of a channel tells its name. -/
theorem name_of_channelId (h : importConfig config db = .ok ((), db')) {entry : KeyEntry}
    (hentry : entry ∈ config.keys) {c : ChannelConfig} (hc : c ∈ db'.channels.rows)
    (hid : c.id = Bootstrap.channelId db' entry.channel) :
    c.name = entry.channel ∧ ChannelRepo.getChannelByName entry.channel db' = some c := by
  obtain ⟨_, hfound, _⟩ := importConfig_keys h
  obtain ⟨c', hc'⟩ := Option.isSome_iff_exists.mp (hfound entry hentry)
  rw [Bootstrap.channelId, hc'] at hid
  obtain rfl : c = c' := List.inj_on_of_nodup_map db'.channels.nodup hc
    (List.mem_of_find?_eq_some hc') hid
  exact ⟨by simpa using List.find?_some hc', hc'⟩

/-- A key of the file is not in the database already. -/
theorem importConfig_fresh_iff (hJ : db.KeysOwned) (h : importConfig config db = .ok ((), db'))
    {entry : KeyEntry} (hentry : entry ∈ config.keys) :
    (Bootstrap.channelId db' entry.channel, entry.apiKey) ∉ db.credentials ↔
      ∀ c, ChannelRepo.getChannelByName entry.channel db = some c →
        KeyRepo.countDuplicateApiKeyInChannel c.id entry.apiKey none db = 0 := by
  obtain ⟨_, _, hfirst⟩ := importConfig_keys h
  simp only [KeyRepo.countDuplicate_none]
  constructor
  · intro hfresh c hc hmem
    have hc' : ChannelRepo.getChannelByName entry.channel db' = some c :=
      hfirst.find?_eq_some hc
    rw [Bootstrap.channelId, hc'] at hfresh
    exact hfresh hmem
  · intro hfresh hmem
    obtain ⟨c, hc, hid⟩ := KeysOwned.exists hJ hmem
    obtain ⟨hcname, hc'⟩ := name_of_channelId h hentry (hfirst.subset hc) hid
    obtain ⟨c₀, hc₀⟩ : ∃ c₀, ChannelRepo.getChannelByName entry.channel db = some c₀ :=
      Option.isSome_iff_exists.mp (List.find?_isSome.mpr ⟨c, hc, by simpa using hcname⟩)
    have hsame : some c₀ = some c :=
      (show ChannelRepo.getChannelByName entry.channel db' = some c₀ from
        hfirst.find?_eq_some hc₀).symm.trans hc'
    cases hsame
    refine hfresh c hc₀ ?_
    rw [hid]
    exact hmem

/-- The keys of the file differ where the file has them differ. -/
theorem importConfig_nodup_iff (h : importConfig config db = .ok ((), db')) :
    (config.keys.map fun k => (Bootstrap.channelId db' k.channel, k.apiKey)).Nodup ↔
      (config.keys.map fun k => (k.channel, k.apiKey)).Nodup := by
  obtain ⟨_, hfound, _⟩ := importConfig_keys h
  have hcomp : (config.keys.map fun k => (Bootstrap.channelId db' k.channel, k.apiKey)) =
      (config.keys.map fun k => (k.channel, k.apiKey)).map
        (Prod.map (Bootstrap.channelId db') id) := by
    rw [List.map_map]
    rfl
  rw [hcomp]
  refine ⟨List.Nodup.of_map _, fun hnodup => hnodup.map_on ?_⟩
  simp only [List.forall_mem_map, Prod.map_apply, id, Prod.mk.injEq]
  rintro entry hentry entry' hentry' ⟨hchannel, hapi⟩
  obtain ⟨c, hc⟩ := Option.isSome_iff_exists.mp (hfound entry hentry)
  have hmem : c ∈ db'.channels.rows := List.mem_of_find?_eq_some hc
  have hid : c.id = Bootstrap.channelId db' entry.channel := by
    rw [Bootstrap.channelId, hc]
    rfl
  obtain ⟨hleft, _⟩ := name_of_channelId h hentry hmem hid
  obtain ⟨hright, _⟩ := name_of_channelId h hentry' hmem (hid.trans hchannel)
  exact ⟨hleft.symm.trans hright, hapi⟩

/-- **A file** keeps keys apart if and only if its keys are new. -/
theorem keysDistinct_importConfig (hJ : db.KeysOwned) (hI : db.KeysDistinct)
    (h : importConfig config db = .ok ((), db')) : db'.KeysDistinct ↔ config.KeysNew db := by
  obtain ⟨hkeys, _, _⟩ := importConfig_keys h
  rw [Db.KeysDistinct, hkeys, List.nodup_append', importConfig_nodup_iff h]
  constructor
  · rintro ⟨_, hnew, hdisjoint⟩
    refine ⟨hnew, fun entry hentry => (importConfig_fresh_iff hJ h hentry).mp fun hmem => ?_⟩
    exact hdisjoint hmem (List.mem_map_of_mem hentry)
  · rintro ⟨hnew, hfresh⟩
    refine ⟨hI, hnew, fun credential hmem hmem' => ?_⟩
    obtain ⟨entry, hentry, rfl⟩ := List.mem_map.mp hmem'
    exact (importConfig_fresh_iff hJ h hentry).mpr (hfresh entry hentry) hmem

end Import

/-- **An update** keeps keys apart if and only if no other key of the key's channel has the new API
key. -/
theorem keysDistinct_updateKey {keyId priority quotaLimit : ℤ} {apiKey : String} {isFree : Bool}
    {pricePer1kTokens : Float} {status : KeyStatus} (hI : db.KeysDistinct)
    (h : KeyRepo.updateKey keyId apiKey isFree priority quotaLimit pricePer1kTokens status db =
      .ok ((), db')) :
    db'.KeysDistinct ↔ ∀ k, db.channelKeys.find? keyId = some k →
      KeyRepo.countDuplicateApiKeyInChannel k.channelId apiKey (some keyId) db = 0 := by
  cases h
  simp only [KeyRepo.countDuplicate_some]
  exact Table.nodup_map_update hI keyId (KeyConfig.key_configured apiKey _ priority _ _ status)

/-- **The other handlers** keep keys apart. -/
theorem keysDistinct_wrote {call : AdminCall} {now : Calendar.Instant} (h : call.Wrote now db db')
    (hown : call.ChecksOwnChannel db) (hI : db.KeysDistinct) : db'.KeysDistinct := by
  cases call with
  | createChannel p =>
    obtain ⟨id, h⟩ := h
    rw [ChannelRepo.createChannelFull_frame h]
    exact hI
  | updateChannel id p =>
    rw [ChannelRepo.updateChannel_frame h]
    exact hI
  | deleteChannel id =>
    rcases ChannelRepo.deleteChannel_frame h with rfl | rfl
    · exact hI
    · exact hI.sublist (List.filter_sublist.map _)
  | createKey channelId p =>
    obtain ⟨hcount, id, h⟩ := h
    obtain ⟨_, row, _, hnew, rfl⟩ := KeyRepo.createKeyAutoPriority_frame h
    show (List.map _ (_ ++ [_])).Nodup
    rw [List.map_append, List.map_singleton, KeyConfig.credential, (hnew _).1, (hnew _).2]
    refine hI.append (List.nodup_singleton _) (List.disjoint_singleton.mpr ?_)
    exact KeyRepo.countDuplicate_none.mp hcount
  | updateKey channelId keyId p =>
    obtain ⟨hcount, status, hstatus, h⟩ := h
    refine (keysDistinct_updateKey hI h).mpr (hown ?_ hcount)
    rw [hstatus]
    exact Option.some_ne_none status
  | deleteKey channelId keyId =>
    rw [KeyRepo.deleteKey_frame h]
    exact hI.sublist (List.filter_sublist.map _)
  | resetKeyQuota channelId keyId =>
    cases h
    show ((Table.rows _).map KeyConfig.credential).Nodup
    rw [Table.map_rows_update (f := KeyConfig.withUsedQuota 0) _ _ _ fun _ => rfl]
    exact hI
  | reorderKeys channelId keyIds =>
    change KeyRepo.reorderKeys .. = _ at h
    rw [KeyRepo.reorderKeys_frame h]
    show ((KeyRepo.setPriorities _ _ _).rows.map _).Nodup
    rw [KeyRepo.map_setPriorities _ _ _ fun _ _ => rfl]
    exact hI
  | _ =>
    obtain ⟨_, _, _, rfl⟩ := AdminCall.Wrote.frame h id
    exact hI

/-- An update that passes the checks of the handler is made. -/
theorem administer_updateKey {lib : Libraries} {s : AppState} {channelId keyId : ℤ}
    {p : UpdateKeyRequest} {chance : Chance} {status : KeyStatus}
    (hstatus : keyStatusOf p.status = some status)
    (hcount : KeyRepo.countDuplicateApiKeyInChannel channelId p.apiKey (some keyId) s.db = 0) :
    ∃ db', KeyRepo.updateKey keyId p.apiKey p.isFree p.priority p.quotaLimit p.pricePer1kTokens
      status s.db = .ok ((), db') ∧
      (s.administer lib (.updateKey channelId keyId p) chance).db = db' := by
  obtain ⟨db', hupdate⟩ : ∃ db', KeyRepo.updateKey keyId p.apiKey p.isFree p.priority p.quotaLimit
      p.pricePer1kTokens status s.db = .ok ((), db') := ⟨_, rfl⟩
  refine ⟨db', hupdate, ?_⟩
  have hreply : updateKeyHandler channelId keyId p s =
      .ok ((), { s with db := db', cache := none }) := by
    rw [updateKeyHandler, droppingCache_ok]
    refine ⟨db', ?_, rfl⟩
    simp only [bind_ok, get_ok, AdminM.refuseIf_ok, AdminM.orElse_ok, AdminM.lift_ok]
    exact ⟨status, _, ⟨status, hstatus, rfl⟩, _, _, rfl, _, _, ⟨hcount ▸ Nat.lt_irrefl 0, rfl⟩,
      hupdate⟩
  rw [AppState.administer, AdminCall.handle, AdminCall.replying, hreply]
  rfl

/-- **One step** keeps keys apart if and only if it meets its condition. -/
theorem keysDistinct_step {lib : Libraries} {s s' : AppState} {l : AdminStep}
    (hJ : s.db.KeysOwned) (hI : s.db.KeysDistinct) (hs : AdminStep.step lib s l = some s') :
    s'.db.KeysDistinct ↔ l.KeepsApart s.db := by
  cases l with
  | importFile config =>
    by_cases himportable : config.Importable s.db
    · obtain ⟨db', himport⟩ := importConfig_ok_iff.mpr himportable
      have hdb : s'.db = db' := by
        rw [← Option.some.inj hs, AppState.query, himport]
      rw [hdb, keysDistinct_importConfig hJ hI himport]
      exact ⟨fun h _ => h, fun h => h himportable⟩
    · have hdb : s'.db = s.db := by
        rcases AdminStep.step_cases hs with hsame | ⟨_, hl, himport⟩ | ⟨_, _, hl, _⟩
        · exact hsame
        · cases hl
          exact absurd (importConfig_ok_iff.mp ⟨_, himport⟩) himportable
        · cases hl
      rw [hdb]
      exact ⟨fun _ h => absurd h himportable, fun _ => hI⟩
  | handle call chance =>
    constructor
    · intro hI'
      cases call with
      | updateKey channelId keyId p =>
        intro hstatus hcount
        obtain ⟨status, hstatus⟩ := Option.ne_none_iff_exists'.mp hstatus
        obtain ⟨db', hupdate, hdb⟩ :=
          administer_updateKey hstatus hcount
        refine (keysDistinct_updateKey hI hupdate).mp ?_
        rw [← hdb]
        cases hs
        exact hI'
      | _ => trivial
    · intro hown
      rcases AdminStep.step_cases hs with hsame | ⟨_, hl, _⟩ | ⟨_, _, hl, hwrote⟩
      · rw [hsame]
        exact hI
      · cases hl
      · cases hl
        exact keysDistinct_wrote hwrote hown hI

end Steps

/-! ### Runs -/

theorem keysOwned_step {lib : Libraries} {s s' : AppState} {l : AdminStep}
    (hJ : s.db.KeysOwned) (hs : AdminStep.step lib s l = some s') : s'.db.KeysOwned := by
  rcases AdminStep.step_cases hs with hsame | ⟨config, _, himport⟩ | ⟨_, _, _, hwrote⟩
  · rwa [hsame]
  · exact keysOwned_importConfig config s.db () s'.db himport hJ
  · exact keysOwned_wrote hwrote hJ

/-- **API keys** of a channel are distinct all along a run of imports and handlers if and only if
each file brings only new ones and each update would pass the check for the channel of its key. -/
theorem keysDistinct_iff (lib : Libraries) (parseDbDatetime : String → Option Calendar.Instant)
    (now : Calendar.Instant) (ls : List AdminStep) :
    (∀ ls' s', ls' <+: ls →
      Machine.run (AdminStep.step lib) (.startup parseDbDatetime {} now) ls' = some s' →
      s'.db.KeysDistinct) ↔
      Machine.Along (AdminStep.step lib) (fun s l => l.KeepsApart s.db)
        (.startup parseDbDatetime {} now) ls := by
  refine Machine.invariant_iff_along (J := fun s => s.db.KeysOwned) ?_ ?_ ?_ ?_ ?_
  · intro s l
    cases l <;> exact ⟨_, rfl⟩
  · intro s l s' hJ hs
    exact keysOwned_step hJ hs
  · intro s l s' hJ hI hs
    exact keysDistinct_step hJ hI hs
  · exact List.nil_subset _
  · exact List.nodup_nil

/-- Two channels, the first of them with two keys. -/
def twoKeysConfig : BootstrapConfig where
  channels := [⟨"first", "openai", "http://first"⟩, ⟨"second", "openai", "http://second"⟩]
  keys := ["sk-1", "sk-2"].map fun apiKey =>
    { channel := "first", apiKey := apiKey, label := none, pricePer1kTokens := none,
      freeQuota := none, quotaResetPeriod := none }

/-- The second key of the first channel gets the API key of the first one, under the path of the
second channel. -/
def crossUpdate : AdminCall :=
  .updateKey 2 2 ⟨"sk-1", false, 20, 0, 0, "active"⟩

/-- The check looks among the keys of the second channel, and finds nothing. -/
theorem not_keysDistinct :
    ¬ ∀ (lib : Libraries) (parseDbDatetime : String → Option Calendar.Instant)
      (now : Calendar.Instant) (ls : List AdminStep) (s' : AppState),
      Machine.run (AdminStep.step lib) (.startup parseDbDatetime {} now) ls = some s' →
      s'.db.KeysDistinct := by
  intro h
  obtain ⟨s', hrun, hkeys⟩ : ∃ s', Machine.run
      (AdminStep.step ⟨Text.toAsciiLower, fun _ _ => .error "not used"⟩)
      (.startup (fun _ => none) {} 0)
      [.importFile twoKeysConfig, .handle crossUpdate ⟨fun _ => 0, fun _ => 0⟩] = some s' ∧
      s'.db.credentials = [(1, "sk-1"), (1, "sk-1")] := ⟨_, rfl, rfl⟩
  have hdistinct := h _ _ _ _ _ hrun
  rw [Db.KeysDistinct, hkeys] at hdistinct
  exact absurd hdistinct (by decide)

end Chennix
