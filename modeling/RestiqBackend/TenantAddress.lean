import Mathlib.Data.List.Nodup
import Mathlib.Logic.Function.Basic
import RestiqBackend.Serial
import RestiqBackend.Slugs

/-!
The address a request came to (`slugFromHost`, `src/platform/tenant-address.service.ts`).

The web server tells the host that its visitor asked for and proves itself with a shared
secret. A token is then let through only at its own tenant's address. Tenants that were found
once are kept by their slug; a lookup waits for the database, and tenants may be created
and other requests answered meanwhile. Each answer notes the tenants there were at the moment of its
lookup.
-/

namespace RestiqBackend.TenantAddress

open Slugs (Hyphened slugProblem slugProblem_ne_invalid_iff)
open Text (trim)

/-! ### The slug of a host -/

/-- `.replace(/:\d+$/, '')` -/
def dropPort (s : List Char) : List Char :=
  let before := s.rdropWhile Char.isDigit
  if s.rtakeWhile Char.isDigit ≠ [] ∧ before.getLast? = some ':' then before.dropLast else s

section Platform

variable (toLowerCase : List Char → List Char)

def bareHost (host : List Char) : List Char := dropPort (toLowerCase (trim host))

def baseOf (baseDomain : List Char) : List Char := toLowerCase (trim baseDomain)

def slugFromHost (host baseDomain : List Char) : Option (List Char) :=
  let bare := bareHost toLowerCase host
  let base := baseOf toLowerCase baseDomain
  if ('.' :: base) <:+ bare then
    let slug := bare.take (bare.length - (base.length + 1))
    if '.' ∈ slug ∨ slugProblem slug = some .invalid then none else some slug
  else none

/-- A single label that can be a slug. -/
structure IsLabel (s : List Char) : Prop where
  hyphened : Hyphened s
  short : 3 ≤ s.length ∧ s.length ≤ 32

/-- A host is read as a tenant's address just when it is a label before the base domain. -/
theorem slugFromHost_eq_some_iff (host baseDomain s : List Char) :
    slugFromHost toLowerCase host baseDomain = some s ↔
      bareHost toLowerCase host = s ++ '.' :: baseOf toLowerCase baseDomain ∧ IsLabel s := by
  have hlabel : ∀ s, ('.' ∈ s ∨ slugProblem s = some .invalid) ↔ ¬IsLabel s := by
    intro s
    have hvalid : IsLabel s ↔ slugProblem s ≠ some .invalid :=
      ⟨fun h => slugProblem_ne_invalid_iff.mpr ⟨h.hyphened, h.short⟩, fun h =>
        ⟨(slugProblem_ne_invalid_iff.mp h).1, (slugProblem_ne_invalid_iff.mp h).2⟩⟩
    rw [hvalid, not_not]
    refine or_iff_right_of_imp fun hdot => ?_
    by_contra hok
    rcases (hvalid.mpr hok).hyphened.chars '.' hdot with h | h
    · exact absurd h (by decide)
    · exact absurd h (by decide)
  unfold slugFromHost
  dsimp only
  generalize bareHost toLowerCase host = bare
  generalize baseOf toLowerCase baseDomain = base
  by_cases hends : ('.' :: base) <:+ bare
  · obtain ⟨t, rfl⟩ := hends
    have hcut : (t ++ '.' :: base).take ((t ++ '.' :: base).length - (base.length + 1)) = t := by
      rw [List.length_append, List.length_cons, Nat.add_sub_cancel, List.take_left]
    rw [if_pos (List.suffix_append _ _), hcut, List.append_left_inj]
    by_cases ht : IsLabel t
    · rw [if_neg fun hbad => (hlabel t).mp hbad ht, Option.some_inj]
      exact ⟨fun h => ⟨h, h ▸ ht⟩, fun h => h.1⟩
    · rw [if_pos ((hlabel t).mpr ht)]
      exact iff_of_false nofun fun h => ht (h.1 ▸ h.2)
  · rw [if_neg hends]
    exact iff_of_false nofun fun h => hends (h.1 ▸ List.suffix_append _ _)

/-! ### Requests -/

/-- The headers that were sent once. -/
structure Headers where
  tenantHost : Option (List Char)
  proxySecret : Option (List Char)
  deriving DecidableEq

structure Env where
  baseDomain : Option (List Char)
  proxySharedSecret : Option (List Char)

def Env.base (env : Env) : List Char := env.baseDomain.getD "idelta.com.au".toList

def proxyIsTrusted (env : Env) (headers : Headers) : Bool :=
  match env.proxySharedSecret.filter (· ≠ []), headers.proxySecret with
  | some secret, some given =>
      let a := (String.ofList given).toUTF8
      let b := (String.ofList secret).toUTF8
      a.size = b.size && a.data = b.data
  | _, _ => false

/-- The slug the visitor's address names, believed of the web server only. -/
def slugOf (env : Env) (headers : Headers) : Option (List Char) :=
  match headers.tenantHost with
  | some host => if proxyIsTrusted env headers then slugFromHost toLowerCase host env.base else none
  | none => none

structure Tenant where
  id : ℕ
  slug : Option (List Char)
  deriving DecidableEq

inductive Stage
  | asking
  /-- The database has answered, and the request has not gone on yet. -/
  | found (tenantId : Option ℕ)
  | answered
  deriving DecidableEq

/-- A request whose slug was not known. -/
structure Lookup where
  headers : Headers
  tokenTenantId : ℕ
  slug : List Char
  stage : Stage
  asOf : List Tenant
  deriving DecidableEq

/-- The database's answer. -/
def Lookup.read (l : Lookup) (tenants : List Tenant) : Lookup :=
  let tenant := tenants.find? (·.slug = some l.slug)
  { l with stage := .found (tenant.map (·.id)), asOf := tenants }

/-- Whether a token was let through, by the tenants of the moment. -/
structure Answer where
  headers : Headers
  tokenTenantId : ℕ
  passed : Bool
  asOf : List Tenant
  deriving DecidableEq

structure World where
  tenants : List Tenant
  idBySlug : List Char → Option ℕ
  lookups : List Lookup
  answers : List Answer

inductive Event
  | createTenant (id : ℕ) (slug : Option (List Char))
  | giveSlug (id : ℕ) (slug : List Char)
  | request (headers : Headers) (tokenTenantId : ℕ)
  | read (lookup : ℕ)
  | resume (lookup : ℕ)
  deriving DecidableEq

/-- What the unique index asks of a new slug. -/
def World.slugFree (w : World) (slug : Option (List Char)) : Prop :=
  slug = none ∨ ∀ t ∈ w.tenants, t.slug ≠ slug

instance (w : World) (slug : Option (List Char)) : Decidable (w.slugFree slug) :=
  inferInstanceAs (Decidable (_ ∨ _))

def World.answer (w : World) (headers : Headers) (tokenTenantId : ℕ) (passed : Bool)
    (asOf : List Tenant) : World :=
  { w with answers := w.answers ++ [⟨headers, tokenTenantId, passed, asOf⟩] }

/-- A lookup is over, and the tenant it found is kept. Misses are not. -/
def World.keep (w : World) (i : ℕ) (l : Lookup) (tenantId : Option ℕ) : World where
  tenants := w.tenants
  idBySlug := match tenantId with
    | some id => Function.update w.idBySlug l.slug (some id)
    | none => w.idBySlug
  lookups := w.lookups.set i { l with stage := .answered }
  answers := w.answers

/-- `assertTokenMatchesAddress`, up to the database. -/
def World.request (w : World) (env : Env) (headers : Headers) (tokenTenantId : ℕ) : World :=
  match slugOf toLowerCase env headers with
  | none => w.answer headers tokenTenantId true w.tenants
  | some slug =>
      match w.idBySlug slug with
      | some known => w.answer headers tokenTenantId (known = tokenTenantId) w.tenants
      | none => { w with lookups := w.lookups ++ [⟨headers, tokenTenantId, slug, .asking, []⟩] }

def World.handle (w : World) (env : Env) : Event → World
  | .createTenant id slug =>
      if (∀ t ∈ w.tenants, t.id ≠ id) ∧ w.slugFree slug then
        { w with tenants := w.tenants ++ [⟨id, slug⟩] }
      else w
  | .giveSlug id slug =>
      if w.slugFree (some slug) then
        { w with tenants := w.tenants.map fun t =>
            if t.id = id ∧ t.slug = none then { t with slug := some slug } else t }
      else w
  | .request headers tokenTenantId => w.request toLowerCase env headers tokenTenantId
  | .read i =>
      match w.lookups[i]? with
      | some l =>
          if l.stage = .asking then { w with lookups := w.lookups.set i (l.read w.tenants) } else w
      | none => w
  | .resume i =>
      match w.lookups[i]? with
      | some l =>
          match l.stage with
          | .found tenantId =>
              (w.keep i l tenantId).answer l.headers l.tokenTenantId
                (tenantId = some l.tokenTenantId) l.asOf
          | _ => w
      | none => w

end Platform

/-! ### What a run keeps -/

/-- The tenant with an identifier has the slug. -/
def Owns (tenants : List Tenant) (slug : List Char) (id : ℕ) : Prop :=
  ∃ t ∈ tenants, t.slug = some slug ∧ t.id = id

instance (tenants : List Tenant) (slug : List Char) (id : ℕ) : Decidable (Owns tenants slug id) :=
  inferInstanceAs (Decidable (∃ t ∈ tenants, _))

/-- Whether a token is let through, where the address names a slug or none. -/
def Answer.Right (toLowerCase : List Char → List Char) (env : Env) (a : Answer) : Prop :=
  match slugOf toLowerCase env a.headers with
  | none => a.passed = true
  | some slug => a.passed = true ↔ Owns a.asOf slug a.tokenTenantId

structure Kept (toLowerCase : List Char → List Char) (env : Env) (w : World) : Prop where
  ids : (w.tenants.map (·.id)).Nodup
  slugs : ∀ t ∈ w.tenants, ∀ u ∈ w.tenants, t.slug ≠ none → t.slug = u.slug → t = u
  cache : ∀ slug id, w.idBySlug slug = some id → Owns w.tenants slug id
  named : ∀ l ∈ w.lookups, slugOf toLowerCase env l.headers = some l.slug
  found : ∀ l ∈ w.lookups, ∀ r, l.stage = .found r →
    (∀ id, r = some id ↔ Owns l.asOf l.slug id) ∧ ∀ id, r = some id → Owns w.tenants l.slug id
  answers : ∀ a ∈ w.answers, a.Right toLowerCase env

section Run

variable {toLowerCase : List Char → List Char} {env : Env} {w : World}

/-- A slug has one owner. -/
theorem Kept.owns_unique (h : Kept toLowerCase env w) {slug : List Char} {id id' : ℕ}
    (ho : Owns w.tenants slug id) (ho' : Owns w.tenants slug id') : id = id' := by
  obtain ⟨t, ht, hslug, rfl⟩ := ho
  obtain ⟨u, hu, hslug', rfl⟩ := ho'
  rw [h.slugs t ht u hu (by rw [hslug]; nofun) (hslug.trans hslug'.symm)]

theorem Kept.find_iff (h : Kept toLowerCase env w) (slug : List Char) (id : ℕ) :
    (w.tenants.find? (·.slug = some slug)).map (·.id) = some id ↔ Owns w.tenants slug id := by
  constructor
  · intro hfind
    obtain ⟨t, ht, hid⟩ := Option.map_eq_some_iff.mp hfind
    have hslug := List.find?_some ht
    exact ⟨t, List.mem_of_find?_eq_some ht, of_decide_eq_true hslug, hid⟩
  · intro ho
    obtain ⟨t, ht, hslug, rfl⟩ := ho
    have hsome : (w.tenants.find? (·.slug = some slug)).isSome = true :=
      List.find?_isSome.mpr ⟨t, ht, decide_eq_true hslug⟩
    obtain ⟨u, hu⟩ := Option.isSome_iff_exists.mp hsome
    have huslug := List.find?_some hu
    have howns : Owns w.tenants slug u.id :=
      ⟨u, List.mem_of_find?_eq_some hu, of_decide_eq_true huslug, rfl⟩
    rw [hu, Option.map_some, h.owns_unique howns ⟨t, ht, hslug, rfl⟩]

/-- The tenants change, each keeping what slug it has. -/
theorem Kept.grow (h : Kept toLowerCase env w) {tenants : List Tenant}
    (hids : (tenants.map (·.id)).Nodup)
    (hslugs : ∀ t ∈ tenants, ∀ u ∈ tenants, t.slug ≠ none → t.slug = u.slug → t = u)
    (hkept : ∀ slug id, Owns w.tenants slug id → Owns tenants slug id) :
    Kept toLowerCase env { w with tenants } where
  ids := hids
  slugs := hslugs
  cache slug id hid := hkept slug id (h.cache slug id hid)
  named := h.named
  found l hl r hr := ⟨(h.found l hl r hr).1, fun id hid => hkept _ _ ((h.found l hl r hr).2 id hid)⟩
  answers := h.answers

theorem Kept.createTenant (h : Kept toLowerCase env w) {id : ℕ} {slug : Option (List Char)}
    (hid : ∀ t ∈ w.tenants, t.id ≠ id) (hfree : w.slugFree slug) :
    Kept toLowerCase env { w with tenants := w.tenants ++ [⟨id, slug⟩] } := by
  have hnew : ∀ t ∈ w.tenants, t.slug ≠ none → t.slug ≠ slug := by
    intro t ht hsome heq
    rcases hfree with rfl | hfree
    · exact hsome heq
    · exact hfree t ht heq
  refine h.grow ?_ (fun t ht u hu hsome heq => ?_) fun slug id ho => ?_
  · rw [List.map_append, List.nodup_append]
    refine ⟨h.ids, List.nodup_singleton _, fun i hi j hj heq => ?_⟩
    obtain ⟨t, ht, rfl⟩ := List.mem_map.mp hi
    exact hid t ht (heq.trans (List.mem_singleton.mp hj))
  · rcases List.mem_append.mp ht with ht | ht <;> rcases List.mem_append.mp hu with hu | hu
    · exact h.slugs t ht u hu hsome heq
    · rw [List.mem_singleton.mp hu] at heq
      exact absurd heq (hnew t ht hsome)
    · rw [List.mem_singleton.mp ht] at heq hsome
      exact absurd heq.symm (hnew u hu (heq ▸ hsome))
    · rw [List.mem_singleton.mp ht, List.mem_singleton.mp hu]
  · obtain ⟨t, ht, hrest⟩ := ho
    exact ⟨t, List.mem_append_left _ ht, hrest⟩

theorem Kept.giveSlug (h : Kept toLowerCase env w) {id : ℕ} {slug : List Char}
    (hfree : w.slugFree (some slug)) :
    Kept toLowerCase env { w with tenants := w.tenants.map fun t =>
      if t.id = id ∧ t.slug = none then { t with slug := some slug } else t } := by
  let give (t : Tenant) : Tenant :=
    if t.id = id ∧ t.slug = none then { t with slug := some slug } else t
  have hfree : ∀ t ∈ w.tenants, t.slug ≠ some slug := hfree.resolve_left nofun
  have hgive : ∀ t, give t = t ∨ (t.id = id ∧ give t = ⟨t.id, some slug⟩) := by
    intro t
    by_cases ht : t.id = id ∧ t.slug = none
    · exact .inr ⟨ht.1, if_pos ht⟩
    · exact .inl (if_neg ht)
  have hid : ∀ t, (give t).id = t.id := by
    intro t
    rcases hgive t with heq | ⟨-, heq⟩ <;> rw [heq]
  refine h.grow ?_ (fun t ht u hu hsome heq => ?_) fun s id ho => ?_
  · have hids : (w.tenants.map give).map (·.id) = w.tenants.map (·.id) := by
      rw [List.map_map]
      exact List.map_congr_left fun t _ => hid t
    exact hids ▸ h.ids
  · obtain ⟨t, htold, rfl⟩ := List.mem_map.mp ht
    obtain ⟨u, huold, rfl⟩ := List.mem_map.mp hu
    change (give t).slug ≠ none at hsome
    change (give t).slug = (give u).slug at heq
    change give t = give u
    rcases hgive t with ht' | ⟨htid, ht'⟩ <;> rcases hgive u with hu' | ⟨huid, hu'⟩
    · rw [ht', hu'] at heq
      rw [ht'] at hsome
      rw [ht', hu', h.slugs t htold u huold hsome heq]
    · rw [ht', hu'] at heq
      exact absurd heq (hfree t htold)
    · rw [ht', hu'] at heq
      exact absurd heq.symm (hfree u huold)
    · rw [List.inj_on_of_nodup_map h.ids htold huold (htid.trans huid.symm)]
  · obtain ⟨t, ht, hslug, rfl⟩ := ho
    refine ⟨give t, List.mem_map_of_mem ht, ?_, hid t⟩
    change (if _ then _ else _ : Tenant).slug = _
    rw [if_neg fun hnone => by rw [hslug] at hnone; exact nomatch hnone.2]
    exact hslug

theorem Kept.answer (h : Kept toLowerCase env w) {headers : Headers} {tokenTenantId : ℕ}
    {passed : Bool} {asOf : List Tenant}
    (hright : Answer.Right toLowerCase env ⟨headers, tokenTenantId, passed, asOf⟩) :
    Kept toLowerCase env (w.answer headers tokenTenantId passed asOf) := by
  refine ⟨h.ids, h.slugs, h.cache, h.named, h.found, fun a ha => ?_⟩
  rcases List.mem_append.mp ha with ha | ha
  · exact h.answers a ha
  · exact List.mem_singleton.mp ha ▸ hright

theorem Kept.request (h : Kept toLowerCase env w) (headers : Headers) (tokenTenantId : ℕ) :
    Kept toLowerCase env (w.request toLowerCase env headers tokenTenantId) := by
  unfold World.request
  cases hslug : slugOf toLowerCase env headers with
  | none =>
      refine h.answer ?_
      rw [Answer.Right, hslug]
  | some slug =>
      dsimp only
      cases hknown : w.idBySlug slug with
      | some known =>
          refine h.answer ?_
          have howns := h.cache slug known hknown
          rw [Answer.Right, hslug]
          refine decide_eq_true_iff.trans ⟨fun heq => heq ▸ howns, fun ho => ?_⟩
          exact h.owns_unique howns ho
      | none =>
          refine ⟨h.ids, h.slugs, h.cache, fun l hl => ?_, fun l hl => ?_, h.answers⟩
          · rcases List.mem_append.mp hl with hl | hl
            · exact h.named l hl
            · exact List.mem_singleton.mp hl ▸ hslug
          · rcases List.mem_append.mp hl with hl | hl
            · exact h.found l hl
            · rw [List.mem_singleton.mp hl]
              nofun

theorem Kept.read (h : Kept toLowerCase env w) {i : ℕ} {l : Lookup} (hl : w.lookups[i]? = some l) :
    Kept toLowerCase env { w with lookups := w.lookups.set i (l.read w.tenants) } := by
  have hmem := List.mem_of_getElem? hl
  refine ⟨h.ids, h.slugs, h.cache, fun m hm => ?_, fun m hm r hr => ?_, h.answers⟩
  · rcases List.mem_or_eq_of_mem_set hm with hm | rfl
    · exact h.named m hm
    · exact h.named l hmem
  · rcases List.mem_or_eq_of_mem_set hm with hm | rfl
    · exact h.found m hm r hr
    · cases hr
      exact ⟨h.find_iff l.slug, fun id hid => (h.find_iff l.slug id).mp hid⟩

theorem Kept.resume (h : Kept toLowerCase env w) {i : ℕ} {l : Lookup} {tenantId : Option ℕ}
    (hl : w.lookups[i]? = some l) (hstage : l.stage = .found tenantId) :
    Kept toLowerCase env ((w.keep i l tenantId).answer l.headers l.tokenTenantId
      (tenantId = some l.tokenTenantId) l.asOf) := by
  have hmem := List.mem_of_getElem? hl
  obtain ⟨hasOf, hnow⟩ := h.found l hmem tenantId hstage
  have hkept : Kept toLowerCase env (w.keep i l tenantId) := by
    refine ⟨h.ids, h.slugs, fun slug id hid => ?_, fun m hm => ?_, fun m hm r hr => ?_, h.answers⟩
    · cases tenantId with
      | none => exact h.cache slug id hid
      | some found =>
          have hid : Function.update w.idBySlug l.slug (some found) slug = some id := hid
          by_cases hslug : slug = l.slug
          · rw [hslug, Function.update_self] at hid
            rw [hslug]
            exact hnow id hid
          · rw [Function.update_of_ne hslug] at hid
            exact h.cache slug id hid
    · rcases List.mem_or_eq_of_mem_set hm with hm | rfl
      · exact h.named m hm
      · exact h.named l hmem
    · rcases List.mem_or_eq_of_mem_set hm with hm | rfl
      · exact h.found m hm r hr
      · cases hr
  refine hkept.answer ?_
  rw [Answer.Right, h.named l hmem]
  exact decide_eq_true_iff.trans (hasOf l.tokenTenantId)

theorem Kept.handle (h : Kept toLowerCase env w) (e : Event) :
    Kept toLowerCase env (w.handle toLowerCase env e) := by
  cases e with
  | createTenant id slug =>
      simp only [World.handle]
      split
      · rename_i hnew
        exact h.createTenant hnew.1 hnew.2
      · exact h
  | giveSlug id slug =>
      simp only [World.handle]
      split
      · exact h.giveSlug ‹_›
      · exact h
  | request headers tokenTenantId => exact h.request headers tokenTenantId
  | read i =>
      simp only [World.handle]
      split
      · split
        · exact h.read ‹_›
        · exact h
      · exact h
  | resume i =>
      simp only [World.handle]
      split
      · rename_i l hl
        split
        · exact h.resume hl ‹_›
        · exact h
      · exact h

end Run

/-! ### The isolation of addresses -/

/-- A process that has just started. -/
structure Started (w : World) : Prop where
  ids : (w.tenants.map (·.id)).Nodup
  slugs : ∀ t ∈ w.tenants, ∀ u ∈ w.tenants, t.slug ≠ none → t.slug = u.slug → t = u
  cache : w.idBySlug = fun _ => none
  lookups : w.lookups = []
  answers : w.answers = []

theorem Started.kept {w : World} (h : Started w) (toLowerCase : List Char → List Char) (env : Env) :
    Kept toLowerCase env w := by
  refine ⟨h.ids, h.slugs, ?_, ?_, ?_, ?_⟩ <;> simp [h.cache, h.lookups, h.answers]

/-- A host is an address just when it is a label before the base domain; a request that came by the
web server to such an address is let through just when the label was the slug of the token's
tenant, in whatever order tenants were created and looked up; and at no other host, nor
without the web server's proof, is a token refused. -/
theorem tenant_addresses_isolated (toLowerCase : List Char → List Char) (env : Env) :
    (∀ host s, slugFromHost toLowerCase host env.base = some s ↔
      bareHost toLowerCase host = s ++ '.' :: baseOf toLowerCase env.base ∧ IsLabel s) ∧
    ∀ w events w', Started w →
      Serial.Run (fun w e w' => w' = w.handle toLowerCase env e) (fun _ _ => True) w events w' →
      ∀ a ∈ w'.answers,
        (∀ host s, proxyIsTrusted env a.headers = true → a.headers.tenantHost = some host →
          bareHost toLowerCase host = s ++ '.' :: baseOf toLowerCase env.base → IsLabel s →
          (a.passed = true ↔ ∃ t ∈ a.asOf, t.slug = some s ∧ t.id = a.tokenTenantId)) ∧
        ((∀ host ∈ a.headers.tenantHost, proxyIsTrusted env a.headers = true →
          ¬∃ s, bareHost toLowerCase host = s ++ '.' :: baseOf toLowerCase env.base ∧ IsLabel s) →
          a.passed = true) := by
  refine ⟨fun host s => slugFromHost_eq_some_iff toLowerCase host env.base s, ?_⟩
  intro w events w' hstart hrun a ha
  have hkept := hrun.preserves (I := Kept toLowerCase env) (fun _ e _ h _ hstep => hstep ▸ h.handle e)
    (hstart.kept toLowerCase env)
  have hright := hkept.answers a ha
  constructor
  · intro host s htrusted hhost hbare hlabel
    have hslug : slugOf toLowerCase env a.headers = some s := by
      rw [slugOf, hhost]
      dsimp only
      rw [if_pos htrusted]
      exact (slugFromHost_eq_some_iff toLowerCase host env.base s).mpr ⟨hbare, hlabel⟩
    rw [Answer.Right, hslug] at hright
    exact hright
  · intro hother
    have hslug : slugOf toLowerCase env a.headers = none := by
      unfold slugOf
      cases hhost : a.headers.tenantHost with
      | none => rfl
      | some host =>
          dsimp only
          split
          · rename_i htrusted
            refine Option.eq_none_iff_forall_ne_some.mpr fun s hs => hother host hhost htrusted ⟨s, ?_⟩
            exact (slugFromHost_eq_some_iff toLowerCase host env.base s).mp hs
          · rfl
    rw [Answer.Right, hslug] at hright
    exact hright

def sampleEnv : Env := ⟨none, some "proxy secret".toList⟩

def sampleHeaders : Headers := ⟨some " BayLeaf.Idelta.com.au:443".toList, some "proxy secret".toList⟩

def noTenants : World := ⟨[], fun _ => none, [], []⟩

/-- A tenant is given its slug between the lookup and the answer of a request; two more requests
come, the last with another tenant's token. -/
def sampleEvents : List Event :=
  [.createTenant 1 none, .request sampleHeaders 1, .read 0, .giveSlug 1 "bayleaf".toList, .resume 0,
    .request sampleHeaders 1, .read 1, .resume 1, .createTenant 2 (some "spice".toList),
    .request sampleHeaders 2]

def sampleWorld : World :=
  sampleEvents.foldl (fun w e => w.handle (·.map Char.toLower) sampleEnv e) noTenants

theorem tenant_addresses_isolated_sample :
    sampleWorld.answers.map (·.passed) = [false, true, false] ∧
      ∀ a ∈ sampleWorld.answers,
        a.passed = true ↔ ∃ t ∈ a.asOf, t.slug = some "bayleaf".toList ∧ t.id = a.tokenTenantId := by
  have hstart : Started noTenants := by
    constructor <;> simp [noTenants]
  have hrun := Serial.Run.of_events (fun w e => w.handle (·.map Char.toLower) sampleEnv e)
    noTenants sampleEvents
  have hlabel : IsLabel "bayleaf".toList :=
    have h := slugProblem_ne_invalid_iff.mp (by decide : slugProblem "bayleaf".toList ≠ some .invalid)
    ⟨h.1, h.2⟩
  have hsame : ∀ a ∈ sampleWorld.answers, a.headers = sampleHeaders := by decide +kernel
  refine ⟨by decide +kernel, fun a ha => ?_⟩
  have hrules := (tenant_addresses_isolated (·.map Char.toLower) sampleEnv).2 noTenants sampleEvents
    sampleWorld hstart hrun a ha
  rw [hsame a ha] at hrules
  exact hrules.1 _ _ (by decide +kernel) rfl (by decide +kernel) hlabel

end RestiqBackend.TenantAddress
