import Floodgate.Ports.LogText
import Floodgate.Ports.ZerohopJson

/-!
# The health endpoint

`_HealthHandler.do_GET` answers `/health` with a JSON document of the lifetime counters,
and every other path with 404.  The path is compared as it stands in the request, with
its query.

## Main results

* `JsonDoc.stat?_healthDoc`: the counters in the document.
* `reports_of_doGet`: a client that reads as many bytes as `Content-Length` says, and
  decodes them, has the counters.
-/

namespace Floodgate.Ports

open Floodgate.Verified

/-! ## The handler -/

/-- The dict that `snapshot` returns, in the order of its keys. -/
def StatsDict.json (snap : StatsDict) : Json :=
  .dict ((counterNames.map fun k => (k.name, .int (snap.counts k))) ++
    [(py "total", .int snap.total)])

/-- The document of the answer. -/
def healthDoc (snap : StatsDict) : JsonDoc :=
  ⟨.dict [(py "status", .str (py "ok")), (py "stats", snap.json)], rfl⟩

/-- A response: its status, its headers in order, and its body. -/
structure HttpResponse where
  status : Nat
  headers : List (PyStr × PyStr)
  body : Bytes

/-- `_HealthHandler.do_GET`.  A number with more than 4300 digits is not printed. -/
def doGet (C : JsonCodec) (path : PyStr) (stats : AntifloodStats) :
    Except PyErr HttpResponse :=
  if path = py "/health" then
    if PyVal.hugeInt stats.snapshot.total then .error PyVal.digitLimitError
    else
      let body := C.dumps (healthDoc stats.snapshot)
      .ok
        { status := 200
          headers :=
            [ (py "Content-Type", py "application/json")
            , (py "Content-Length", intText body.length) ]
          body := body }
  else .ok ⟨404, [], []⟩

/-! ## The document -/

/-- `data["stats"][key]` of a decoded answer. -/
def JsonDoc.stat? (d : JsonDoc) (key : PyStr) : Option Int :=
  d.asDict.bind fun data =>
    match data.get? (py "stats") with
    | some (.dict ms) => (Assoc.get? ms key).bind Json.asInt
    | _ => none

theorem JsonDoc.stat?_healthDoc (snap : StatsDict) (k : Counter) :
    (healthDoc snap).stat? k.name = some (snap.counts k : Int) := by
  cases k <;> rfl

theorem JsonDoc.stat?_healthDoc_total (snap : StatsDict) :
    (healthDoc snap).stat? (py "total") = some (snap.total : Int) := rfl

theorem counts_le_counterTotal (f : Counter → Nat) (k : Counter) : f k ≤ counterTotal f :=
  List.le_sum_of_mem (List.mem_map_of_mem (by cases k <;> decide))

/-- The numbers of a snapshot, the total last. -/
theorem forall_mem_statsJson {P : PyStr × Json → Prop} {snap : StatsDict}
    (hcounts : ∀ k, P (k.name, .int (snap.counts k))) (htotal : P (py "total", .int snap.total)) :
    ∀ kv ∈ (counterNames.map fun k => (k.name, Json.int (snap.counts k))) ++
      [(py "total", .int snap.total)], P kv := by
  intro kv hkv
  rcases List.mem_append.mp hkv with hkv | hkv
  · obtain ⟨k, -, rfl⟩ := List.mem_map.mp hkv
    exact hcounts k
  · rw [List.mem_singleton.mp hkv]
    exact htotal

section Document

variable {snap : StatsDict}

theorem fits_healthDoc (hadds : snap.total = counterTotal snap.counts)
    (hhuge : PyVal.hugeInt snap.total = false) {depth : Nat} (hdepth : 2 ≤ depth) :
    (healthDoc snap).val.Fits depth := by
  obtain ⟨depth, rfl⟩ := Nat.exists_eq_add_of_le' hdepth
  have htotal : snap.total < 10 ^ 4300 := Nat.not_le.mp (of_decide_eq_false hhuge)
  intro kv hkv
  simp only [List.mem_cons, List.not_mem_nil, or_false] at hkv
  rcases hkv with rfl | rfl
  · simp [Json.Fits]
  · refine forall_mem_statsJson (fun k => ?_) ?_
    · have hle : snap.counts k ≤ snap.total := hadds ▸ counts_le_counterTotal snap.counts k
      have hcount : PyVal.hugeInt (snap.counts k) = false :=
        hugeInt_eq_false (Nat.le_refl 4300) (hle.trans_lt htotal)
      simpa [Json.Fits] using hcount
    · simpa [Json.Fits] using hhuge

theorem not_nonFinite_healthDoc : ¬(healthDoc snap).val.NonFinite := by
  intro h
  cases h with
  | dict hmem h =>
      simp only [List.mem_cons, List.not_mem_nil, or_false] at hmem
      rcases hmem with rfl | rfl
      · cases h
      · cases h with
        | dict hmem h =>
            refine forall_mem_statsJson (P := fun kv => ¬kv.2.NonFinite) (fun k h => ?_)
              (fun h => ?_) _ hmem h
            · cases h
            · cases h

theorem clean_healthDoc : (healthDoc snap).val.clean = true := by
  have hname : ∀ k : Counter, k.name.any PyChar.isSurrogate = false := by
    intro k
    cases k <;> decide
  have hkeys : ∀ key ∈ [py "status", py "stats", py "total"],
      key.any PyChar.isSurrogate = false := by decide
  have hstats : snap.json.clean = true := by
    rw [StatsDict.json, Json.clean, Json.cleanMembers_iff]
    exact forall_mem_statsJson (fun k => ⟨hname k, rfl⟩) ⟨hkeys _ (by simp), rfl⟩
  rw [healthDoc, Json.clean, Json.cleanMembers_iff]
  intro kv hkv
  simp only [List.mem_cons, List.not_mem_nil, or_false] at hkv
  rcases hkv with rfl | rfl
  · exact ⟨hkeys _ (by simp), rfl⟩
  · exact ⟨hkeys _ (by simp), hstats⟩

end Document

/-! ## What a client reads -/

/-- The response tells a client the given counters: it is JSON by the standard, as long
as it says it is, and the counters are in the document that it decodes to. -/
structure HttpResponse.Reports (C : JsonCodec) (resp : HttpResponse) (snap : StatsDict) :
    Prop where
  status : resp.status = 200
  contentType : (py "Content-Type", py "application/json") ∈ resp.headers
  contentLength : ∃ text, (py "Content-Length", text) ∈ resp.headers ∧
    readNumber text = resp.body.length
  strict : ∃ t, StrictJson resp.body t
  counts : ∃ d, C.loads resp.body = .ok d ∧
    (∀ k : Counter, d.stat? k.name = some (snap.counts k : Int)) ∧
    d.stat? (py "total") = some (counterTotal snap.counts : Int)

/-- The answer to `/health`, when it is given: it reports the lifetime counters. -/
theorem reports_of_doGet {C : JsonCodec} (hdepth : 2 ≤ C.maxDepth) {stats : AntifloodStats}
    {resp : HttpResponse} (h : doGet C (py "/health") stats = .ok resp) :
    resp.Reports C stats.snapshot := by
  rw [doGet, if_pos rfl] at h
  split at h
  · cases h
  · next hhuge =>
    have hfits := @fits_healthDoc stats.snapshot rfl (Bool.eq_false_of_not_eq_true hhuge) _ hdepth
    cases h
    exact
      { status := rfl
        contentType := List.mem_cons_self
        contentLength := ⟨_, List.mem_cons_of_mem _ List.mem_cons_self, readNumber_intText _⟩
        strict := ⟨_, JsonCodec.strictJson_dumps hfits not_nonFinite_healthDoc⟩
        counts := ⟨_, C.loads_dumps clean_healthDoc hfits, JsonDoc.stat?_healthDoc _,
          JsonDoc.stat?_healthDoc_total _⟩ }

/-- Only a number that is too long to print keeps the endpoint from answering. -/
theorem exists_doGet (C : JsonCodec) (path : PyStr) {stats : AntifloodStats}
    (h : counterTotal stats.lifetime < 10 ^ 4300) : ∃ resp, doGet C path stats = .ok resp := by
  have hhuge : PyVal.hugeInt stats.snapshot.total = false :=
    hugeInt_eq_false (Nat.le_refl 4300) h
  unfold doGet
  split
  · rw [hhuge]
    exact ⟨_, rfl⟩
  · exact ⟨_, rfl⟩

/-- Every other path is answered with 404 and nothing else. -/
theorem doGet_of_ne (C : JsonCodec) {path : PyStr} (h : path ≠ py "/health")
    (stats : AntifloodStats) : doGet C path stats = .ok ⟨404, [], []⟩ := if_neg h

end Floodgate.Ports
