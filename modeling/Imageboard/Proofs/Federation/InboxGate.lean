import Imageboard.Proofs.Federation.Authentication
import Imageboard.Proofs.Federation.Inbox
import Imageboard.Proofs.Federation.KeyResolver
import Imageboard.Proofs.Keys.Registry

namespace Imageboard

open SignatureHeader (withoutFragment)

/-- Where the key of an actor is known from: it is registered here under its key id, or it is not
and one of some calls of the resolver, less than a lifetime ago, found it in the document of the
actor, whose address is the key id without its fragment. -/
inductive KeySource (n : Node) (calls : List Resolution) (tick : Int) (keyId actor pem : String) :
    Prop where
  | registered (file : String) (row : ⟨keyId, actor, file⟩ ∈ n.board.keys.rows)
      (text : n.files.read file = .ok pem)
  | published (call : Resolution) (id : String) (unknown : ∀ k ∈ n.board.keys.rows, k.id ≠ keyId)
      (address : actor = withoutFragment keyId) (earlier : call ∈ calls)
      (lasting : tick < call.tick + keyLifetime)
      (document : call.web.Publishes call.log actor id pem)
      (named : '#' ∈ keyId.toList → id = keyId)

namespace Node

variable {n : Node} {web : Web} {tick : Int} {calls : List Resolution} {log : Log}
  {keyId actor pem : String}

/-- The resolver answers for what is not registered here. -/
theorem keyFor_source (h : n.keyFor web tick (.after calls) log keyId = .ok (actor, pem)) :
    KeySource n (calls ++ [⟨web, tick, keyId, log⟩]) tick keyId actor pem := by
  unfold keyFor at h
  split at h
  next => cases h
  next key hk =>
    cases h
    obtain ⟨file, hm, hr⟩ := publicKey_eq_some hk
    exact .registered file hm hr
  next hk =>
    cases hr : ((resolveKey web tick keyId (.after calls)).run log).1.1 with
    | error f =>
      rw [hr] at h
      cases h
    | ok key =>
      rw [hr] at h
      cases h
      have hr : ((Resolution.mk web tick keyId log).run (.after calls)).1 = .ok key := hr
      obtain ⟨⟨hurl, hid⟩, before, c, hc, hp, ht⟩ := Resolution.run_eq_ok hr
      exact .published c key.keyId (publicKey_eq_none hk) hurl
        (hc.subset (by simp)) ht hp.document hid

end Node

namespace Site

theorem authenticate_cache (s : Site) (web : Web) (time : Time) (n : Node) (r : RequestHead)
    (body : Bytes) (calls : List Resolution) (log : Log) : ∃ more : List Resolution,
    ((s.authenticate web time n r body (.after calls)).run log).1.2 = .after (calls ++ more) := by
  unfold authenticate
  split
  next => exact ⟨[], by rw [List.append_nil]; rfl⟩
  next => exact ⟨[], by rw [List.append_nil]; rfl⟩
  next header _ _ =>
    refine ⟨[⟨web, time.tick, header.keyId, log⟩], ?_⟩
    rw [KeyCache.after_append, Resolution.run, run_bind]
    rcases (resolveKey web time.tick header.keyId (.after calls)).run log with
      ⟨⟨f | key, c⟩, log'⟩ <;> rfl

theorem serve_cache (s : Site) (around : Surroundings) (time : Time) (resident : String)
    (r : RequestHead) (body : Bytes) (n : Node) (calls : List Resolution) (log : Log) :
    ∃ more : List Resolution,
      ((s.serve around time resident r body (.after calls)).run (n, log)).1.2 =
        .after (calls ++ more) := by
  obtain ⟨more, h⟩ := authenticate_cache s around.web time n r body calls log
  refine ⟨more, ?_⟩
  rw [serve_run]
  dsimp only
  split
  · exact h
  · exact h

/-- A request has an activity, and is authentic for the activity's actor by a key that is known as
the actor's. -/
def SignedByActor (s : Site) (web : Web) (time : Time) (n : Node) (r : RequestHead) (body : Bytes)
    (calls : List Resolution) (log : Log) : Prop :=
  ∃ (a : Activity) (header : SignatureHeader) (text pem : String),
    (Json.ofBytes? body).bind (Activity.decode? maxDepth) = some a ∧
    s.Authentic web time n r body (.after calls) log a.actorId header text pem ∧
    KeySource n (calls ++ [⟨web, time.tick, header.keyId, log⟩]) time.tick header.keyId
      a.actorId pem

/-- A request to an inbox changes nothing if it fails, and is signed by the actor of its activity if
it does not. -/
theorem serve_unchanged_or_signed (s : Site) (around : Surroundings) (time : Time)
    (resident : String) (r : RequestHead) (body : Bytes) (n : Node) (calls : List Resolution)
    (log : Log) :
    let served := (s.serve around time resident r body (.after calls)).run (n, log)
    match served.1.1 with
    | .error _ => served.2.1 = n
    | .ok _ => s.SignedByActor around.web time n r body calls log := by
  intro served
  rcases serve_cases s around time resident r body (.after calls) n log with
    ⟨f, hf, hn⟩ | ⟨a, hauth, ha, happlied⟩
  · split
    next => exact hn
    next h => cases hf.symm.trans h
  · split
    next h =>
      rw [h] at happlied
      exact happlied.eq_of_error
    next =>
      obtain ⟨header, text, pem, h⟩ := authenticate_eq_ok_iff.1 hauth
      exact ⟨a, header, text, pem, ha, h, Node.keyFor_source h.key⟩

theorem serve_specimen :
    let s : Site := ⟨{}, "", "", fun _ => false⟩
    let around : Surroundings :=
      { web := fun _ _ => .dropped, graph := .hosted, sender := fun _ _ _ => return {} }
    let r := specimenRequest .post ⟨"Thu, 01 Jan 1970 00:00:00 GMT", by decide⟩
    ((s.serve around ⟨.epoch, 0⟩ "" r specimenBody (.after [])).run (specimenNode, [])).1.1 =
        .ok .ignored ∧
      s.SignedByActor around.web ⟨.epoch, 0⟩ specimenNode r specimenBody [] [] := by
  intro s around r
  have hauth : ((s.authenticate around.web ⟨.epoch, 0⟩ specimenNode r specimenBody (.after [])).run
      []).1.1 = .ok "http://u" :=
    authenticate_eq_ok_iff.2 ⟨_, _, _, specimen_authentic
      (RequestHead.checkDate_eq_ok_iff.1 (by decide +kernel)) (by decide +kernel)⟩
  have hread : (readActivity "http://u" specimenBody).map (·.verb?) = .ok (some .accept) := by
    decide +kernel
  obtain ⟨a, ha, hv⟩ : ∃ a, readActivity "http://u" specimenBody = .ok a ∧
    a.verb? = some .accept := by
    cases ha : readActivity "http://u" specimenBody with
    | error f =>
      rw [ha] at hread
      cases hread
    | ok a =>
      rw [ha] at hread
      exact ⟨a, rfl, Except.ok.inj hread⟩
  have hok : ((s.serve around ⟨.epoch, 0⟩ "" r specimenBody (.after [])).run
      (specimenNode, [])).1.1 = .ok .ignored := (serve_accept hauth ha hv).1
  have gate :=
    serve_unchanged_or_signed s around ⟨.epoch, 0⟩ "" r specimenBody specimenNode [] []
  dsimp only at gate
  rw [hok] at gate
  exact ⟨hok, gate⟩

end Site
end Imageboard
