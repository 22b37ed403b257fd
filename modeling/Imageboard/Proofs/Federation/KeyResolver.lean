import Imageboard.Federation.KeyResolver
import Imageboard.Proofs.Board.Table
import Imageboard.Proofs.Effects
import Imageboard.Proofs.Text.Cuts

namespace Imageboard

open SignatureHeader (withoutFragment)

theorem withoutFragment_ne_self {keyId : String} (h : '#' ∈ keyId.toList) :
    withoutFragment keyId ≠ keyId := by
  intro he
  unfold withoutFragment at he
  split at he
  next front back hcut =>
    obtain ⟨hc, hn⟩ := Text.cut?_eq_some_iff.1 hcut
    rw [← he, String.toList_ofList] at h
    exact hn h
  next hcut => exact Text.cut?_eq_none_iff.1 hcut h

def Web.asking (url : String) : WebRequest :=
  { method := "GET", url, headers := [(.accept, Web.activityTypes)] }

def Web.Publishes (web : Web) (log : Log) (url keyId pem : String) : Prop :=
  ∃ status text, web log (Web.asking url) = .answered status text ∧
    Web.isFailure status = false ∧
    (Json.parse? text).bind publishedKey? = some (some (keyId, pem))

variable {web : Web} {log log' : Log} {url text : String} {sought : Option String}
  {key : ResolvedKey}

theorem Web.fetch_yields_iff {asking accepting : Task} :
    Yields (web.fetch url asking accepting) log text log' ↔
      ∃ status, web log (Web.asking url) = .answered status text ∧ Web.isFailure status = false ∧
        log' = log ++ [.requested (Web.asking url)] := by
  unfold Web.fetch
  constructor
  · intro h
    obtain ⟨reply, _, hr, h⟩ := yields_bind.1 h
    cases hr
    split at h
    next => exact absurd h yields_throw
    next status body hreply =>
      split at h
      next => exact absurd h yields_throw
      next hs =>
        obtain ⟨rfl, rfl⟩ := yields_pure.1 h
        exact ⟨status, hreply, by simpa using hs, rfl⟩
  · rintro ⟨status, hreply, hs, rfl⟩
    refine yields_bind.2 ⟨.answered status text, _, Prod.ext (congrArg Except.ok hreply) rfl, ?_⟩
    dsimp only
    rw [hs]
    exact yields_pure.2 ⟨rfl, rfl⟩

theorem fetchKey_yields_iff : Yields (fetchKey web url sought) log key log' ↔
    key.actorUrl = url ∧ (∀ w, sought = some w → key.keyId = w) ∧
      web.Publishes log url key.keyId key.pem ∧
      log' = log ++ [.requested (Web.asking url)] := by
  unfold fetchKey
  constructor
  · intro h
    obtain ⟨text, _, ht, h⟩ := yields_bind.1 h
    obtain ⟨status, hreply, hs, rfl⟩ := Web.fetch_yields_iff.1 ht
    split at h
    next => exact absurd h yields_throw
    next => exact absurd h yields_throw
    next keyId pem hp =>
      have published : web.Publishes log url keyId pem := ⟨status, text, hreply, hs, hp⟩
      cases sought with
      | none =>
        obtain ⟨rfl, rfl⟩ := yields_pure.1 h
        exact ⟨rfl, nofun, published, rfl⟩
      | some w =>
        dsimp only at h
        split at h
        next hw =>
          obtain ⟨rfl, rfl⟩ := yields_pure.1 h
          exact ⟨rfl, fun _ hw' => (Option.some.inj hw' ▸ hw).symm, published, rfl⟩
        next => exact absurd h yields_throw
  · rintro ⟨rfl, hw, ⟨status, text, hreply, hs, hp⟩, rfl⟩
    refine yields_bind.2 ⟨text, _, Web.fetch_yields_iff.2 ⟨status, hreply, hs, rfl⟩, ?_⟩
    rw [hp]
    cases sought with
    | none => exact yields_pure.2 ⟨rfl, rfl⟩
    | some w =>
      dsimp only
      rw [if_pos (hw w rfl).symm]
      exact yields_pure.2 ⟨rfl, rfl⟩

/-- A call of the resolver, with the web and the log as they are then. -/
structure Resolution where
  web : Web
  tick : Int
  keyId : String
  log : Log := []

namespace Resolution

def actorUrl (call : Resolution) : String :=
  withoutFragment call.keyId

/-- The key id, if it is for one key of its actor only. -/
def wanted (call : Resolution) : Option String :=
  if call.actorUrl = call.keyId then none else some call.keyId

def run (call : Resolution) (cache : KeyCache) : Except Fault ResolvedKey × KeyCache :=
  ((resolveKey call.web call.tick call.keyId cache).run call.log).1

def logAfter (call : Resolution) (cache : KeyCache) : Log :=
  ((resolveKey call.web call.tick call.keyId cache).run call.log).2

def fetched (call : Resolution) : Except Fault ResolvedKey :=
  ((fetchKey call.web call.actorUrl call.wanted).run.run call.log).1

def Requests (call : Resolution) (cache : KeyCache) : Prop :=
  call.logAfter cache = call.log ++ [.requested (Web.asking call.actorUrl)]

/-- The call asks for a key, and for no other key of its actor if the key id has a fragment. -/
def Wants (call : Resolution) (key : ResolvedKey) : Prop :=
  key.actorUrl = call.actorUrl ∧ ('#' ∈ call.keyId.toList → key.keyId = call.keyId)

def Finds (call : Resolution) (key : ResolvedKey) : Prop :=
  call.web.Publishes call.log key.actorUrl key.keyId key.pem

structure Fetches (call : Resolution) (cache : KeyCache) (key : ResolvedKey) : Prop where
  address : key.actorUrl = call.actorUrl
  request : call.Requests cache
  document : call.Finds key

end Resolution

namespace KeyCache

def after (calls : List Resolution) : KeyCache :=
  calls.foldl (fun cache call => (call.run cache).2) {}

theorem after_append (calls : List Resolution) (call : Resolution) :
    after (calls ++ [call]) = (call.run (after calls)).2 := by
  rw [after, List.foldl_append]
  rfl

variable {cache : KeyCache} {tick : Int}

theorem live?_eq_some (h : cache.live? tick url = some key) :
    ∃ k ∈ cache.rows, k.resolved = key ∧ key.actorUrl = url ∧ tick < k.expires := by
  unfold live? at h
  split at h
  next k hk =>
    obtain ⟨hk, hurl⟩ := Table.get?_eq_some_iff.1 hk
    split at h
    next ht =>
      cases h
      exact ⟨k, hk, rfl, List.head_eq_of_cons_eq hurl, ht⟩
    next => cases h
  next => cases h

end KeyCache

namespace Resolution

variable {call : Resolution} {calls : List Resolution} {cache : KeyCache}

/-- All that a call can do: it answers from the cache and leaves it, or ends as without a cache.
Then it fails, or fetches a key and keeps it for its lifetime. -/
theorem run_cases (call : Resolution) (cache : KeyCache) :
    (∃ k ∈ cache.rows, call.Wants k.resolved ∧ call.tick < k.expires ∧
      call.run cache = (.ok k.resolved, cache)) ∨
    ((call.run cache).1 = call.fetched ∧
      ((∃ f, call.run cache = (.error f, cache.expire call.tick call.actorUrl)) ∨
      (∃ key, call.Wants key ∧ call.Finds key ∧ call.Requests cache ∧
        call.run cache = (.ok key, (cache.expire call.tick call.actorUrl).put
          { resolved := key, expires := call.tick + keyLifetime })))) := by
  unfold Requests logAfter run fetched wanted actorUrl resolveKey
  dsimp only
  split
  next key hit =>
    obtain ⟨hlive, hall⟩ := Option.filter_eq_some_iff.1 hit
    obtain ⟨k, hk, rfl, hurl, ht⟩ := KeyCache.live?_eq_some hlive
    refine .inl ⟨k, hk, ⟨hurl, fun hm => ?_⟩, ht, rfl⟩
    rw [if_neg (withoutFragment_ne_self hm)] at hall
    exact (beq_iff_eq.1 hall).symm
  next =>
    refine .inr ?_
    rw [run_bind]
    rcases hf : (fetchKey call.web _ _).run.run call.log with ⟨f | key, log'⟩
    · exact ⟨rfl, .inl ⟨f, rfl⟩⟩
    · obtain ⟨hurl, hw, hp, asked⟩ := fetchKey_yields_iff.1 hf
      have wants : call.Wants key :=
        ⟨hurl, fun hm => hw _ (if_neg (withoutFragment_ne_self hm))⟩
      have finds : call.Finds key := by
        rw [Finds, hurl]
        exact hp
      exact ⟨rfl, .inr ⟨key, wants, finds, asked, rfl⟩⟩

theorem mem_after {k : CachedKey} (hk : k ∈ (KeyCache.after calls).rows) :
    ∃ before call, before ++ [call] <+: calls ∧ call.Fetches (.after before) k.resolved ∧
      k.expires = call.tick + keyLifetime := by
  induction calls using List.reverseRecOn with
  | nil => cases hk
  | append_singleton calls call ih =>
    have earlier (hk : k ∈ (KeyCache.after calls).rows) :
        ∃ before c, before ++ [c] <+: calls ++ [call] ∧ c.Fetches (.after before) k.resolved ∧
          k.expires = c.tick + keyLifetime := by
      obtain ⟨before, c, hc, h⟩ := ih hk
      exact ⟨before, c, hc.trans (List.prefix_append ..), h⟩
    rw [KeyCache.after_append] at hk
    rcases run_cases call (.after calls) with
      ⟨_, _, _, _, h⟩ | ⟨-, ⟨f, h⟩ | ⟨key, hw, hf, asked, h⟩⟩
    · rw [h] at hk
      exact earlier hk
    · rw [h] at hk
      exact earlier (Table.mem_filter.1 hk).1
    · rw [h] at hk
      rcases Table.mem_put.1 hk with rfl | ⟨hk, -⟩
      · exact ⟨calls, call, List.prefix_rfl, ⟨hw.1, asked, hf⟩, rfl⟩
      · exact earlier (Table.mem_filter.1 hk).1

/-- The key that a call answers with was fetched at this call, or at an earlier one less than a
lifetime ago. -/
theorem run_eq_ok (h : (call.run (.after calls)).1 = .ok key) :
    call.Wants key ∧ ∃ before c, before ++ [c] <+: calls ++ [call] ∧
      c.Fetches (.after before) key ∧ call.tick < c.tick + keyLifetime := by
  rcases run_cases call (.after calls) with
    ⟨k, hk, hw, ht, hr⟩ | ⟨-, ⟨f, hr⟩ | ⟨found, hw, hf, asked, hr⟩⟩
  · rw [hr] at h
    cases h
    obtain ⟨before, c, hc, hfetches, he⟩ := mem_after hk
    exact ⟨hw, before, c, hc.trans (List.prefix_append ..), hfetches, he ▸ ht⟩
  · rw [hr] at h
    cases h
  · rw [hr] at h
    cases h
    have lasts : call.tick < call.tick + keyLifetime := by
      unfold keyLifetime
      omega
    exact ⟨hw, calls, call, List.prefix_rfl, ⟨hw.1, asked, hf⟩, lasts⟩

end Resolution
end Imageboard
