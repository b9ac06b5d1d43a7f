import Mathlib.Algebra.Order.Ring.Int
import Mediabox.Lib.Transition

/-!
# The ids of announcements (`src/discovery.c`)

Every machine broadcasts an id that is made of random numbers when the first announcement is sent.
The generator is seeded with a checksum of the host's name, by the function that reads the name.

* `rand seed i` is random number `i` after `srand(seed)`; without `srand` the seed is 1.  Nothing
  else in the program uses the generator.
* A step is a call of `avbox_discovery_broadcast` for an interface, or a function of the service
  around it.  `host` is the name of the host, without the newline that `/proc` adds.
* The quotient in `genid` is that of the integers: as 2^31 - 1 is a prime, a `double` is far more
  precise than the next integer is close.

Main result: `ids_never_differ`.
-/

set_option autoImplicit false

namespace Mediabox.Discovery

open Transition

abbrev CString := List UInt8

def bytes (text : String) : CString := text.toList.map Char.toUInt8

section Host

variable (rand : Nat → Nat → Nat) (host : CString)

/-! ## The code -/

/-- The seed of the generator before `srand`. -/
def defaultSeed : Nat := 1

/-- `RAND_MAX` -/
def randMax : Int := 2147483647

/-- `id`, and the seed of the generator that it was made with. -/
structure Id where
  text : List Char
  seed : Nat
  deriving DecidableEq, Repr

/-- `gen` is 1 when there is an `id`. -/
structure State where
  /-- of the generator, and how many numbers it has given since -/
  seed : Nat
  drawn : Nat
  id : Option Id
  hostname : Option CString
  ifaceIndex : Nat
  deriving DecidableEq, Repr

def init : State := ⟨defaultSeed, 0, none, none, 0⟩

def charset : List Char := "0123456789ABCDEFGHIJKLMNOPQRSTUVWXYZ".toList

/-- `charset[j]` for a random number. -/
def pick (r : Nat) : Char := charset.getD ((((r : Int) - 1) * 36).tdiv randMax).toNat '0'

/-- `genid` -/
def genid (s : State) : State × Id :=
  match s.id with
  | some id => (s, id)
  | none =>
    let id : Id := ⟨(List.range 12).map fun i => pick (rand s.seed (s.drawn + i)), s.seed⟩
    ({ s with
      drawn := s.drawn + 12
      id := some id }, id)

/-- What `avbox_discovery_broadcast` meets outside. -/
structure Env where
  malloc : Bool
  opened : Bool
  read : Bool
  strdup : Bool
  ip : Option CString
  deriving DecidableEq, Repr

/-- `checksum`; a `char` is signed. -/
def checksum (hostname : CString) : Nat :=
  ((hostname.map fun c : UInt8 => c.toInt8.toInt).sum % 2 ^ 32).toNat

/-- `mbox_discovery_hostname` -/
def discoveryHostname (env : Env) (s : State) : State × Option CString :=
  if !env.malloc then (s, none)
  else if !env.opened then (s, none)
  else if !env.read then (s, none)
  else
    let hostname := ((host ++ [10]).take 63).dropLast
    ({ s with
      seed := checksum hostname
      drawn := 0 }, some hostname)

/-- What is sent. -/
structure Announcement where
  id : Id
  hostname : CString
  ifaceIndex : Nat
  ip : CString
  deriving DecidableEq, Repr

/-- `hostname`, if it is not known yet; `none` where the function returns. -/
def knownHostname (env : Env) (s : State) : State × Option CString :=
  match s.hostname with
  | some hostname => (s, some hostname)
  | none =>
    match discoveryHostname host env s with
    | (s, some hostname) => ({ s with hostname := some hostname }, some hostname)
    | (s, none) =>
      if env.strdup then
        ({ s with hostname := some (bytes "mediabox") }, some (bytes "mediabox"))
      else (s, none)

/-- `avbox_discovery_broadcast` -/
def broadcast (iface : CString) (env : Env) (s : State) : State × Option Announcement :=
  let (s, id) := genid rand s
  match knownHostname host env s with
  | (s, none) => (s, none)
  | (s, some hostname) =>
    if iface = bytes "lo" then (s, none)
    else
      match env.ip with
      | none => (s, none)
      | some ip =>
        ({ s with ifaceIndex := s.ifaceIndex + 1 }, some ⟨id, hostname, s.ifaceIndex, ip⟩)

inductive Event where
  /-- `avbox_discovery_sendbroadcast` starts over with the interfaces -/
  | sendbroadcast
  | broadcast (iface : CString) (env : Env)
  /-- `mbox_discovery_shutdown` frees the name -/
  | shutdown
  deriving DecidableEq, Repr

def step (s : State) : Event → Option (State × Option Announcement)
  | .sendbroadcast => some ({ s with ifaceIndex := 0 }, none)
  | .broadcast iface env => some (broadcast rand host iface env s)
  | .shutdown => some ({ s with hostname := none }, none)

/-- The id is sent in this run. -/
def Announced (tr : List (Event × Option Announcement)) (id : Id) : Prop :=
  ∃ e a, (e, some a) ∈ tr ∧ a.id = id

/-! ## The id -/

/-- The id that the generator gives before it is seeded. -/
def defaultId : Id := ⟨(List.range 12).map fun i => pick (rand defaultSeed i), defaultSeed⟩

/-- The generator is seeded only after there is an id. -/
structure Inv (tr : List (Event × Option Announcement)) (s : State) : Prop where
  fresh : s.id = none → s.seed = defaultSeed ∧ s.drawn = 0
  id : ∀ id, s.id = some id → id = defaultId rand
  announced : ∀ id, Announced tr id → id = defaultId rand

variable {rand host} {s s' : State} {tr : List (Event × Option Announcement)}

theorem Inv.init : Inv rand [] init where
  fresh _ := ⟨rfl, rfl⟩
  id id hid := nomatch (show none = some id from hid)
  announced _ := fun ⟨_, _, ha, _⟩ => nomatch ha

/-- Afterwards there is an id. -/
theorem genid_eq (h : Inv rand tr s) :
    (genid rand s).2 = defaultId rand ∧ (genid rand s).1.id = some (defaultId rand) := by
  unfold genid
  split
  · rename_i id hid
    exact ⟨h.id id hid, hid.trans (congrArg some (h.id id hid))⟩
  · rename_i hid
    obtain ⟨hseed, hdrawn⟩ := h.fresh hid
    have heq : (⟨(List.range 12).map fun i => pick (rand s.seed (s.drawn + i)), s.seed⟩ : Id) =
        defaultId rand := by
      rw [hseed, hdrawn, defaultId]
      simp only [Nat.zero_add]
    exact ⟨heq, congrArg some heq⟩

theorem discoveryHostname_id (env : Env) (s : State) :
    (discoveryHostname host env s).1.id = s.id := by
  unfold discoveryHostname
  repeat'
    split
  all_goals rfl

theorem knownHostname_id (env : Env) (s : State) : (knownHostname host env s).1.id = s.id := by
  have hid : (discoveryHostname host env s).1.id = s.id := discoveryHostname_id env s
  unfold knownHostname
  split
  · rfl
  · generalize discoveryHostname host env s = r at hid
    obtain ⟨t, hostname⟩ := r
    cases hostname with
    | some hostname => exact hid
    | none =>
      dsimp only
      split
      · exact hid
      · exact hid

/-- **A broadcast** sends the id that the generator gave before it was seeded. -/
theorem broadcast_id (host : CString) (h : Inv rand tr s) (iface : CString) (env : Env) :
    (broadcast rand host iface env s).1.id = some (defaultId rand) ∧
      ∀ a, (broadcast rand host iface env s).2 = some a → a.id = defaultId rand := by
  obtain ⟨hsent, hid⟩ := genid_eq h
  have hknown : (knownHostname host env (genid rand s).1).1.id = some (defaultId rand) :=
    (knownHostname_id env _).trans hid
  unfold broadcast
  dsimp only
  generalize knownHostname host env (genid rand s).1 = r at hknown
  obtain ⟨t, hostname⟩ := r
  cases hostname with
  | none => exact ⟨hknown, nofun⟩
  | some hostname =>
    dsimp only
    split
    · exact ⟨hknown, nofun⟩
    · cases env.ip with
      | none => exact ⟨hknown, nofun⟩
      | some ip =>
        refine ⟨hknown, ?_⟩
        rintro _ ⟨⟩
        exact hsent

theorem announced_concat {e : Event} {out : Option Announcement} {id : Id}
    (h : Announced (tr ++ [(e, out)]) id) : Announced tr id ∨ ∃ a, out = some a ∧ a.id = id := by
  obtain ⟨e', a, ha, hid⟩ := h
  rcases List.mem_append.mp ha with ha | ha
  · exact .inl ⟨e', a, ha, hid⟩
  · cases List.mem_singleton.mp ha
    exact .inr ⟨a, rfl, hid⟩

/-- **A step**: the first broadcast makes the id, and no other step changes it. -/
theorem Inv.step {a : Event × Option Announcement} (h : Inv rand tr s)
    (hs : Step (step rand host) s a s') : Inv rand (tr ++ [a]) s' := by
  obtain ⟨e, out⟩ := a
  have hquiet (hout : out = none) :
      ∀ id, Announced (tr ++ [(e, out)]) id → id = defaultId rand := by
    intro id hid
    rcases announced_concat hid with hid | ⟨a, ha, -⟩
    · exact h.announced id hid
    · exact nomatch hout.symm.trans ha
  cases e with
  | sendbroadcast | shutdown =>
    cases hs
    exact ⟨h.fresh, h.id, hquiet rfl⟩
  | broadcast iface env =>
    obtain ⟨hid, hsent⟩ := broadcast_id host h iface env
    have heq : broadcast rand host iface env s = (s', out) := Option.some.inj hs
    rw [heq] at hid hsent
    refine ⟨fun hnone => (nomatch hid.symm.trans hnone),
      fun id h' => Option.some.inj (h'.symm.trans hid), fun id h' => ?_⟩
    rcases announced_concat h' with h' | ⟨a, ha, rfl⟩
    · exact h.announced id h'
    · exact hsent a ha

/-- **In every run** the id is the one that the generator gave before it was seeded. -/
theorem announced_default (h : Run (Step (step rand host)) init tr s) {id : Id}
    (hid : Announced tr id) : id = defaultId rand := by
  have hinv : Inv rand tr s :=
    Run.history (P := Inv rand) Inv.init (fun _ _ _ _ ht hstep => ht.step hstep) h
  exact hinv.announced id hid

/-- An interface with an address, and nothing fails. -/
def wired : Event := .broadcast (bytes "eth0") ⟨true, true, true, true, some (bytes "10.0.0.2")⟩

theorem exists_announced (rand : Nat → Nat → Nat) (host : CString) :
    ∃ tr s, Run (Step (step rand host)) init tr s ∧ Announced tr (defaultId rand) := by
  have hrun : ∃ s a, Run (Step (step rand host)) init [(wired, some a)] s :=
    ⟨_, _, Run.nil.snoc rfl⟩
  obtain ⟨s, a, hrun⟩ := hrun
  have hsent : Announced [(wired, some a)] a.id := ⟨_, a, List.mem_singleton_self _, rfl⟩
  exact ⟨_, s, hrun, announced_default hrun hsent ▸ hsent⟩

end Host

/-- Two hosts: their ids come from generators with different seeds. -/
def Unique (rand : Nat → Nat → Nat) (host₁ host₂ : CString) : Prop :=
  ∀ tr₁ s₁ tr₂ s₂ id₁ id₂, Run (Step (step rand host₁)) init tr₁ s₁ →
    Run (Step (step rand host₂)) init tr₂ s₂ → Announced tr₁ id₁ → Announced tr₂ id₂ →
      id₁.seed ≠ id₂.seed

/-- **The same id everywhere**: of no two hosts do the seeds differ, as in every run on any of them
    the id that is announced is the first one of the generator without a seed. -/
theorem ids_never_differ (rand : Nat → Nat → Nat) (host₁ host₂ : CString) :
    ¬Unique rand host₁ host₂ ∧
      ∀ tr s id, Run (Step (step rand host₁)) init tr s → Announced tr id →
        id = defaultId rand := by
  obtain ⟨tr₁, s₁, hrun₁, hid₁⟩ := exists_announced rand host₁
  obtain ⟨tr₂, s₂, hrun₂, hid₂⟩ := exists_announced rand host₂
  exact ⟨fun h => h _ _ _ _ _ _ hrun₁ hrun₂ hid₁ hid₂ rfl, fun _ _ _ hrun hid =>
    announced_default hrun hid⟩

/-- Two rooms, with a linear congruential generator. -/
theorem rooms_not_unique :
    ¬Unique (fun seed n => (seed + n) * 1103515245 % 2147483648) (bytes "bedroom")
      (bytes "kitchen") := by
  obtain ⟨tr₁, s₁, hrun₁, hid₁⟩ := exists_announced
    (fun seed n => (seed + n) * 1103515245 % 2147483648) (bytes "bedroom")
  obtain ⟨tr₂, s₂, hrun₂, hid₂⟩ := exists_announced
    (fun seed n => (seed + n) * 1103515245 % 2147483648) (bytes "kitchen")
  exact fun h => h _ _ _ _ _ _ hrun₁ hrun₂ hid₁ hid₂ rfl

end Mediabox.Discovery
