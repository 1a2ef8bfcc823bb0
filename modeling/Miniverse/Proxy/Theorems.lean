import Miniverse.Manager.Service
import Miniverse.Proxy.Service

/-!
# Theorems about the router and its webhooks
-/

namespace Backend

open Lib

variable {α : Type} {env : Env α}

/-! ## Routes -/

theorem setItem_new {mappings : List (String × String)} {key : String} (value : String)
    (h : key ∉ mappings.map Prod.fst) : setItem mappings key value = mappings ++ [(key, value)] := by
  unfold setItem
  rw [if_neg]
  intro hany
  obtain ⟨e, he, hkey⟩ := List.any_eq_true.mp hany
  exact h (List.mem_map.mpr ⟨e, he, of_decide_eq_true hkey⟩)

/-- The domain after the dot does not identify two subdomains. -/
theorem host_injective (domain : String) : Function.Injective fun s : String => s ++ "." ++ domain := by
  intro s t h
  have hchars := congrArg String.toList h
  simp only [String.toList_append, List.append_assoc] at hchars
  exact String.toList_inj.mp (List.append_cancel_right hchars)

/-- With a subdomain for each miniverse, every miniverse has its own route. -/
theorem generate_router_routes_distinct {ms : List Miniverse} (h : (ms.map (·.subdomain)).Nodup) :
    generate_router_routes env ms = ms.map fun m => (m.subdomain ++ "." ++ env.DOMAIN_NAME, router_address m) := by
  have key (rest : List Miniverse) : ∀ mappings : List (String × String),
      (mappings.map Prod.fst ++ rest.map fun m => m.subdomain ++ "." ++ env.DOMAIN_NAME).Nodup →
      rest.foldl (fun mappings m => setItem mappings (m.subdomain ++ "." ++ env.DOMAIN_NAME) (router_address m)) mappings =
        mappings ++ rest.map fun m => (m.subdomain ++ "." ++ env.DOMAIN_NAME, router_address m) := by
    induction rest with
    | nil => exact fun mappings _ => (List.append_nil _).symm
    | cons m rest ih =>
        intro mappings hnodup
        rw [List.map_cons, List.append_cons] at hnodup
        have hnew : m.subdomain ++ "." ++ env.DOMAIN_NAME ∉ mappings.map Prod.fst := by
          have := (List.nodup_append.mp (List.nodup_append.mp hnodup).1).2.2
          exact fun hmem => this _ hmem _ (List.mem_singleton_self _) rfl
        rw [List.foldl_cons, setItem_new _ hnew, ih _ (by simpa using hnodup), List.map_cons, List.append_assoc]
        rfl
  refine (key ms [] ?_).trans (List.nil_append _)
  have := h.map (host_injective env.DOMAIN_NAME)
  rw [List.map_map] at this
  exact this

/-! ## Delivery -/

/-- The webhook reaches the controller of the identifier. -/
def Delivers (w : World α) (payload : WebhookPayload) (id : Uuid4) : Prop :=
  ∃ online_players, w.service payload.target_id = some (id, .mcRouter online_players)

/-- A webhook is processed by the controller that it reaches. -/
theorem handle_mc_router_webhook_delivers {w : World α} {payload : WebhookPayload} {id : Uuid4}
    (h : Delivers w payload id) :
    ∃ online_players, handle_mc_router_webhook env payload w = process_webhook env id online_players payload w := by
  obtain ⟨players, h⟩ := h
  refine ⟨players, ?_⟩
  rw [handle_mc_router_webhook, Eff.read_bind_run, h]

theorem handle_mc_router_webhook_ignored {w : World α} {payload : WebhookPayload} (h : ∀ id, ¬ Delivers w payload id) :
    handle_mc_router_webhook env payload w = (.ok (), w) := by
  rw [handle_mc_router_webhook, Eff.read_bind_run]
  rcases hs : w.service payload.target_id with _ | ⟨id, _ | players⟩
  · rfl
  · rfl
  · exact absurd ⟨players, hs⟩ (h id)

theorem service_str {w : World α} {miniverse_id : String} {id : Uuid4} {c : Controller}
    (h : w.service miniverse_id = some (id, c)) : id.str = miniverse_id := by
  unfold World.service at h
  simpa using List.find?_some h

/-! ## Decoding an address -/

theorem Uuid4.first (id : Uuid4) : ∃ c cs, id.str.toList = c :: cs ∧ c ∈ hexDigits ∧ cs.length = 35 := by
  have hok := id.ok
  have hlen := id.length
  rcases hid : id.str.toList with _ | ⟨c, cs⟩
  · rw [hid] at hlen
    cases hlen
  · rw [hid, List.length_cons] at hlen
    refine ⟨c, cs, rfl, ?_, by omega⟩
    rw [isUuid4, hid] at hok
    have hform : uuid4Form = 'x' :: uuid4Form.tail := by decide
    rw [hform, List.zip_cons_cons, List.all_cons] at hok
    simp only [Bool.and_eq_true] at hok
    simpa [fitsUuid4] using hok.2.1

theorem Uuid4.noColon (id : Uuid4) : ∀ c ∈ id.str.toList, decide (c ≠ ':') = true := by
  intro c hc
  have hall : ∀ c ∈ '-' :: hexDigits, decide (c ≠ ':') = true := List.all_iff_forall_prop.mp (by decide)
  exact hall c (id.chars c hc)

theorem router_address_toList (m : Miniverse) :
    (router_address m).toList = "miniverse-".toList ++ (m.id.str.toList ++ ":25565".toList) := by
  simp [router_address]

theorem lstrip_router_address (m : Miniverse) :
    lstrip "miniverse-".toList (router_address m).toList =
      (m.id.str.toList ++ ":25565".toList).dropWhile (· ∈ "miniverse-".toList) := by
  rw [lstrip, router_address_toList, List.dropWhile_append_of_pos (List.all_iff_forall_prop.mp (by decide))]

/-- The identifier is read back when its first digit is not stripped. -/
theorem target_id_eq {payload : WebhookPayload} {m : Miniverse} (hp : payload.backend = some (router_address m))
    (he : m.id.str.toList.head? ≠ some 'e') : payload.target_id = m.id.str := by
  obtain ⟨c, cs, hid, hc, _⟩ := m.id.first
  have hkeep : ∀ c ∈ hexDigits, c ≠ 'e' → c ∉ "miniverse-".toList :=
    List.all_iff_forall_prop.mp (by decide)
  have hce : c ≠ 'e' := by simpa [hid] using he
  rw [WebhookPayload.target_id, hp, Option.getD_some, lstrip_router_address, hid, List.cons_append,
    List.dropWhile_cons_of_neg (by simpa using hkeep c hc hce), ← List.cons_append, ← hid,
    List.takeWhile_append_of_pos m.id.noColon]
  have hport : ":25565".toList.takeWhile (fun c => decide (c ≠ ':')) = [] := by decide
  rw [hport, List.append_nil, String.ofList_toList]

/-- What is left after a first digit `e` is too short. -/
theorem target_id_short {payload : WebhookPayload} {m : Miniverse} (hp : payload.backend = some (router_address m))
    (he : m.id.str.toList.head? = some 'e') : payload.target_id.toList.length < 36 := by
  obtain ⟨c, cs, hid, _, hlen⟩ := m.id.first
  obtain rfl : c = 'e' := by simpa [hid] using he
  rw [WebhookPayload.target_id, hp, Option.getD_some, lstrip_router_address, hid, List.cons_append,
    List.dropWhile_cons_of_pos (by decide), List.dropWhile_append, String.toList_ofList]
  split
  · decide
  · have hcs : ∀ c ∈ cs.dropWhile (· ∈ "miniverse-".toList), decide (c ≠ ':') = true := fun c hc =>
      m.id.noColon c (hid ▸ List.mem_cons_of_mem _ ((List.dropWhile_sublist _).subset hc))
    have hport : ":25565".toList.takeWhile (fun c => decide (c ≠ ':')) = [] := by decide
    rw [List.takeWhile_append_of_pos hcs, hport, List.append_nil]
    have := (List.dropWhile_sublist (l := cs) fun c => decide (c ∈ "miniverse-".toList)).length_le
    omega

/-- A webhook for the address of a miniverse reaches its controller and no other, exactly when the identifier
does not start with `e`. -/
theorem webhook_reaches_own_iff {w : World α} {ms : List Miniverse} {m : Miniverse} {payload : WebhookPayload}
    (hregistered : ∀ n ∈ ms, ∃ online_players, w.service n.id.str = some (n.id, .mcRouter online_players))
    (hm : m ∈ ms) (hp : payload.backend = some (router_address m)) :
    (∀ id, Delivers w payload id ↔ id = m.id) ↔ m.id.str.toList.head? ≠ some 'e' := by
  constructor
  · intro h he
    obtain ⟨players, hs⟩ := (h m.id).mpr rfl
    have hshort := target_id_short hp he
    rw [← service_str hs, m.id.length] at hshort
    omega
  · intro he id
    rw [Delivers, target_id_eq hp he]
    obtain ⟨players, hs⟩ := hregistered m hm
    rw [hs]
    constructor
    · rintro ⟨_, h⟩
      simp only [Option.some.injEq, Prod.mk.injEq] at h
      exact h.1.symm
    · rintro rfl
      exact ⟨players, rfl⟩

/-- A miniverse with the least identifier, and its controller. -/
def sampleMiniverse : Miniverse :=
  ⟨sampleId, "Sample", .vanilla, none, none, none, "1.21.8", "sample", true, true, false, false, none⟩

theorem webhook_reaches_own_sample :
    (∀ id, Delivers { sampleWorld with controllers := [(sampleId, .mcRouter [])] }
      ⟨some (router_address sampleMiniverse), none, none, none⟩ id ↔ id = sampleMiniverse.id) ↔
      sampleMiniverse.id.str.toList.head? ≠ some 'e' :=
  @webhook_reaches_own_iff _ _ [sampleMiniverse] _ _
    (fun n hn => ⟨[], by rw [List.mem_singleton.mp hn]; rfl⟩) (List.mem_singleton_self _) rfl

def sampleIdE : Uuid4 := ⟨"e0000000-0000-4000-8000-000000000000", by decide⟩

set_option maxRecDepth 10000 in
/-- The first digit of the identifier is stripped with the name before it. -/
theorem webhook_lost :
    ¬ ∀ id, Delivers { sampleWorld with controllers := [(sampleIdE, .mcRouter [])] }
      ⟨some (router_address { sampleMiniverse with id := sampleIdE }), none, none, none⟩ id ↔ id = sampleIdE := by
  intro h
  obtain ⟨players, hs⟩ := (h sampleIdE).mpr rfl
  have hnone : (World.service { sampleWorld with controllers := [(sampleIdE, .mcRouter [])] }
      (WebhookPayload.target_id ⟨some (router_address { sampleMiniverse with id := sampleIdE }), none, none, none⟩)) = none := by
    decide
  rw [hnone] at hs
  cases hs

end Backend
