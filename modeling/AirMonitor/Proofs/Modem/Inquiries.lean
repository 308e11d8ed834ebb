import AirMonitor.Modem.State
import AirMonitor.Proofs.Modem.FlagSets

/-!
The three inquiries of a refresh, and what their answers decide. An answer can be merged
into every state or into none. Where it can, it decides the fields that belong to its
inquiry, whatever they were, and leaves all others as they are (`Inquiry.merge_cases`).
-/
namespace AirMonitor

/-- What a refresh asks for. -/
inductive Inquiry
  | station
  | connections
  | mux
deriving DecidableEq

/-- What no inquiry decides is the same. -/
structure ModemState.Settled (s t : ModemState) : Prop where
  ssid : t.ssid = s.ssid
  serverPort : t.serverPort = s.serverPort
  power : t.power = s.power
  flags : t.flags.remove .known = s.flags.remove .known

theorem ModemState.Settled.trans {s t u : ModemState} (first : Settled s t) (second : Settled t u) : Settled s u :=
  ⟨second.ssid.trans first.ssid, second.serverPort.trans first.serverPort, second.power.trans first.power,
    second.flags.trans first.flags⟩

namespace Inquiry

/-- The inquiries in the order in which a refresh makes them. -/
def all : List Inquiry := [station, connections, mux]

theorem mem_all (i : Inquiry) : i ∈ all := by cases i <;> decide

/-- No inquiry is made twice. -/
theorem place_unique {i : Inquiry} {place other : Nat} (own : all[place]? = some i) (also : all[other]? = some i) :
    place = other := by
  obtain ⟨early, -⟩ := List.getElem?_eq_some_iff.mp own
  exact (List.getElem?_inj early (by decide)).mp (own.trans also.symm)

def query : Inquiry → String
  | station => ModemState.stationQuery
  | connections => ModemState.connectionQuery
  | mux => ModemState.muxQuery

/-- Merges an answer. -/
def merge (i : Inquiry) (d : At.Document) (s : ModemState) : Except ModemError ModemState :=
  match i with
  | station => .ok (s.mergeStation d)
  | connections => s.mergeConnections d
  | mux => s.mergeMux d

/-- The flags that an answer decides. -/
def flags : Inquiry → List ModemFlags
  | station => [.wifiConnected]
  | connections => [.serverOn, .clientConnected, .asClient]
  | mux => [.muxOn]

theorem known_of_flag {i : Inquiry} {f : ModemFlags} (own : f ∈ i.flags) : f ∈ ModemFlags.all := by
  have every : ∀ i ∈ all, ∀ f ∈ i.flags, f ∈ ModemFlags.all := by decide
  exact every i (mem_all i) f own

theorem exists_flag {f : ModemFlags} (member : f ∈ ModemFlags.all) : ∃ i ∈ all, f ∈ i.flags := by
  have owned : ∀ f ∈ ModemFlags.all, ∃ i ∈ all, f ∈ i.flags := by decide
  exact owned f member

theorem flag_of_one {i j : Inquiry} (different : j ≠ i) {f : ModemFlags} (own : f ∈ j.flags) : f ∉ i.flags := by
  have apart : ∀ i ∈ all, ∀ j ∈ all, j ≠ i → ∀ f ∈ j.flags, f ∉ i.flags := by decide
  exact apart i (mem_all i) j (mem_all j) different f own

/-- The fields that an answer decides are the same. -/
structure Same (i : Inquiry) (s t : ModemState) : Prop where
  flags : ∀ f ∈ i.flags, t.flags.contains f = s.flags.contains f
  address : i = station → t.address = s.address
  gateway : i = station → t.gateway = s.gateway
  netmask : i = station → t.netmask = s.netmask
  clients : i = connections → t.clients = s.clients

variable {i : Inquiry} {s t u : ModemState}

theorem Same.refl (i : Inquiry) (s : ModemState) : i.Same s s :=
  ⟨fun _ _ => rfl, fun _ => rfl, fun _ => rfl, fun _ => rfl, fun _ => rfl⟩

theorem Same.symm (same : i.Same s t) : i.Same t s :=
  ⟨fun f member => (same.flags f member).symm, fun own => (same.address own).symm, fun own => (same.gateway own).symm,
    fun own => (same.netmask own).symm, fun own => (same.clients own).symm⟩

theorem Same.trans (first : i.Same s t) (second : i.Same t u) : i.Same s u :=
  ⟨fun f member => (second.flags f member).trans (first.flags f member),
    fun own => (second.address own).trans (first.address own), fun own => (second.gateway own).trans (first.gateway own),
    fun own => (second.netmask own).trans (first.netmask own), fun own => (second.clients own).trans (first.clients own)⟩

/-- The inquiries decide all that is not settled. -/
theorem eq_of_same (same : ∀ i : Inquiry, i.Same s t) (settled : s.Settled t) : t = s := by
  have flags : t.flags = s.flags := by
    refine ModemFlags.eq_of_contains ?_ settled.flags
    intro f member
    obtain ⟨i, -, own⟩ := exists_flag member
    exact (same i).flags f own
  have address := (same station).address rfl
  have gateway := (same station).gateway rfl
  have netmask := (same station).netmask rfl
  have clients := (same connections).clients rfl
  obtain ⟨ssid, serverPort, power, -⟩ := settled
  cases s
  cases t
  simp_all

/-- An answer was merged: what it decides is as reported, and all else as it was. -/
structure Decides (i : Inquiry) (reported s t : ModemState) : Prop where
  decided : i.Same reported t
  others : ∀ j, j ≠ i → j.Same s t
  settled : s.Settled t

/-! ### Merging an answer -/

theorem mergeStation_eq (d : At.Document) : ∃ up address gateway netmask, ∀ s : ModemState,
    s.mergeStation d = { s with flags := s.flags.set .wifiConnected up, address, gateway, netmask } := by
  unfold ModemState.mergeStation
  split
  · next address gateway _ _ =>
    by_cases unspecified : address = "" ∨ address = "0.0.0.0"
    · exact ⟨false, "", "", "", fun s => by rw [if_pos unspecified]; rfl⟩
    · exact ⟨true, address, gateway, _, fun s => by rw [if_neg unspecified]; rfl⟩
  · exact ⟨false, "", "", "", fun s => rfl⟩

theorem mergeMux_eq (d : At.Document) :
    (∀ s : ModemState, s.mergeMux d = .error (.malformed mux.query)) ∨
      ∃ on, ∀ s : ModemState, s.mergeMux d = .ok { s with flags := s.flags.set .muxOn on } := by
  unfold ModemState.mergeMux
  cases ModemState.codeOf? d "+CIPMUX" with
  | none => exact .inl fun s => rfl
  | some mode => exact .inr ⟨_, fun s => rfl⟩

/-- The flags after the connection table was merged. -/
def linked (reachable : Bool) (clients : List Client) (flags : ModemFlags) : ModemFlags :=
  clients.foldl (fun flags c => flags.insert (ModemState.connectionFlag c))
    ((if reachable then flags.insert .serverOn else flags.remove (.union .serverOn .clientConnected)).remove
      (.union .clientConnected .asClient))

theorem mergeConnections_known {d : At.Document} {reachable : Bool}
    (known : (ModemState.codeOf? d "STATUS").bind ModemState.serverReachable? = some reachable) (s : ModemState) :
    s.mergeConnections d =
      .ok { s with flags := linked reachable (ModemState.clientsOf d) s.flags, clients := ModemState.clientsOf d } := by
  rw [ModemState.mergeConnections, known]
  rfl

theorem mergeConnections_unknown {d : At.Document}
    (unknown : (ModemState.codeOf? d "STATUS").bind ModemState.serverReachable? = none) (s : ModemState) :
    s.mergeConnections d = .error (.malformed connections.query) := by
  rw [ModemState.mergeConnections, unknown]
  rfl

theorem mergeConnections_eq (d : At.Document) :
    (∀ s : ModemState, s.mergeConnections d = .error (.malformed connections.query)) ∨
      ∃ reachable, ∀ s : ModemState, s.mergeConnections d =
        .ok { s with flags := linked reachable (ModemState.clientsOf d) s.flags, clients := ModemState.clientsOf d } := by
  cases known : (ModemState.codeOf? d "STATUS").bind ModemState.serverReachable? with
  | none => exact .inl (mergeConnections_unknown known)
  | some reachable => exact .inr ⟨reachable, mergeConnections_known known⟩

theorem contains_linked {f : ModemFlags} (single : f.Single) (reachable : Bool) (clients : List Client)
    (flags : ModemFlags) : (linked reachable clients flags).contains f =
      ((if reachable then flags.insert .serverOn else flags.remove (.union .serverOn .clientConnected)).contains f &&
          !(ModemFlags.union .clientConnected .asClient).contains f ||
        clients.any fun c => (ModemState.connectionFlag c).contains f) := by
  have folded : ∀ a : ModemFlags, (clients.foldl (fun flags c => flags.insert (ModemState.connectionFlag c)) a).contains f =
      (a.contains f || clients.any fun c => (ModemState.connectionFlag c).contains f) := by
    induction clients with
    | nil => simp
    | cons c clients ih =>
      intro a
      rw [List.foldl_cons, ih, ModemFlags.contains_insert single, List.any_cons, Bool.or_assoc]
  rw [linked, folded, ModemFlags.contains_remove single]

theorem contains_connectionFlag (c : Client) (f : ModemFlags) : (ModemState.connectionFlag c).contains f =
    if c.passive then ModemFlags.clientConnected.contains f else ModemFlags.asClient.contains f := by
  unfold ModemState.connectionFlag
  cases c.passive <;> rfl

section
variable (reachable : Bool) (clients : List Client) (a : ModemFlags)

theorem linked_serverOn : (linked reachable clients a).contains .serverOn = reachable := by
  have single : ModemFlags.serverOn.Single := ModemFlags.single_of_mem (by decide)
  have own : ModemFlags.serverOn.contains .serverOn = true ∧
      (ModemFlags.union .serverOn .clientConnected).contains .serverOn = true := by decide
  have links : (ModemFlags.union .clientConnected .asClient).contains .serverOn = false ∧
      ModemFlags.clientConnected.contains .serverOn = false ∧ ModemFlags.asClient.contains .serverOn = false := by decide
  rw [contains_linked single]
  cases reachable <;>
    simp [contains_connectionFlag, ModemFlags.contains_insert single, ModemFlags.contains_remove single, own, links]

theorem linked_clientConnected : (linked reachable clients a).contains .clientConnected = clients.any Client.passive := by
  have links : (ModemFlags.union .clientConnected .asClient).contains .clientConnected = true ∧
      ModemFlags.clientConnected.contains .clientConnected = true ∧
      ModemFlags.asClient.contains .clientConnected = false := by decide
  rw [contains_linked (ModemFlags.single_of_mem (by decide))]
  simp [contains_connectionFlag, links]

theorem linked_asClient : (linked reachable clients a).contains .asClient = clients.any (!·.passive) := by
  have links : (ModemFlags.union .clientConnected .asClient).contains .asClient = true ∧
      ModemFlags.clientConnected.contains .asClient = false ∧ ModemFlags.asClient.contains .asClient = true := by decide
  rw [contains_linked (ModemFlags.single_of_mem (by decide))]
  simp [contains_connectionFlag, links]

theorem linked_other {f : ModemFlags} (known : f ∈ ModemFlags.all) (foreign : f ∉ connections.flags) :
    (linked reachable clients a).contains f = a.contains f := by
  have single := ModemFlags.single_of_mem known
  have apart : ∀ f ∈ ModemFlags.all, f ∉ connections.flags → ModemFlags.serverOn.contains f = false ∧
      (ModemFlags.union .serverOn .clientConnected).contains f = false ∧
      (ModemFlags.union .clientConnected .asClient).contains f = false ∧
      ModemFlags.clientConnected.contains f = false ∧ ModemFlags.asClient.contains f = false := by decide
  obtain ⟨server, down, links, passive, active⟩ := apart f known foreign
  rw [contains_linked single]
  cases reachable <;>
    simp [contains_connectionFlag, ModemFlags.contains_insert single, ModemFlags.contains_remove single, server, down,
      links, passive, active]

theorem linked_beside : (linked reachable clients a).remove .known = a.remove .known := by
  have folded : ∀ a : ModemFlags,
      (clients.foldl (fun flags c => flags.insert (ModemState.connectionFlag c)) a).remove .known = a.remove .known := by
    induction clients with
    | nil => exact fun a => rfl
    | cons c clients ih =>
      intro a
      have known : ModemFlags.known.contains (ModemState.connectionFlag c) = true := by
        unfold ModemState.connectionFlag
        cases c.passive <;> decide
      rw [List.foldl_cons, ih, ModemFlags.remove_insert known]
  rw [linked, folded, ModemFlags.remove_remove (by decide)]
  cases reachable
  · exact ModemFlags.remove_remove (by decide) a
  · exact ModemFlags.remove_insert (by decide) a

end

/-- A change of the flags that decides those of an inquiry and leaves the others. -/
structure Governs (i : Inquiry) (change : ModemFlags → ModemFlags) : Prop where
  own : ∀ f ∈ i.flags, ∀ a b, (change a).contains f = (change b).contains f
  other : ∀ f ∈ ModemFlags.all, f ∉ i.flags → ∀ a, (change a).contains f = a.contains f
  beside : ∀ a, (change a).remove .known = a.remove .known

theorem governs_set {b : ModemFlags} (owns : i.flags = [b]) (member : b ∈ ModemFlags.all) (on : Bool) :
    i.Governs (·.set b on) := by
  have whole : ∀ b ∈ ModemFlags.all, b.contains b = true ∧ ModemFlags.known.contains b = true := by decide
  have apart : ∀ b ∈ ModemFlags.all, ∀ f ∈ ModemFlags.all, f ≠ b → b.contains f = false := by decide
  refine ⟨?_, ?_, fun a => ModemFlags.remove_set (whole b member).2 a on⟩
  · intro f own a a'
    obtain rfl : f = b := by simpa [owns] using own
    have single := ModemFlags.single_of_mem member
    rw [ModemFlags.contains_set single, ModemFlags.contains_set single, if_pos (whole f member).1,
      if_pos (whole f member).1]
  · intro f known foreign a
    have different : f ≠ b := by simpa [owns] using foreign
    rw [ModemFlags.contains_set (ModemFlags.single_of_mem known), apart b member f known different]
    rfl

theorem governs_linked (reachable : Bool) (clients : List Client) : connections.Governs (linked reachable clients) := by
  refine ⟨?_, fun f known foreign a => linked_other reachable clients a known foreign, linked_beside reachable clients⟩
  intro f own a b
  simp only [flags, List.mem_cons, List.not_mem_nil, or_false] at own
  rcases own with rfl | rfl | rfl
  · rw [linked_serverOn, linked_serverOn]
  · rw [linked_clientConnected, linked_clientConnected]
  · rw [linked_asClient, linked_asClient]

/-- An answer can be merged into every state or into none. -/
theorem merge_cases (i : Inquiry) (d : At.Document) :
    (∀ s, i.merge d s = .error (.malformed i.query)) ∨
      ∃ reported, ∀ s, ∃ t, i.merge d s = .ok t ∧ i.Decides reported s t := by
  cases i with
  | station =>
    obtain ⟨up, address, gateway, netmask, merged⟩ := mergeStation_eq d
    have governs : station.Governs (·.set .wifiConnected up) := governs_set rfl (by decide) up
    let reported : ModemState := { flags := ModemFlags.none.set .wifiConnected up, address, gateway, netmask }
    refine .inr ⟨reported, fun s => ⟨_, congrArg Except.ok (merged s), ?_⟩⟩
    constructor
    · exact ⟨fun f own => governs.own f own _ _, fun _ => rfl, fun _ => rfl, fun _ => rfl, nofun⟩
    · intro j different
      exact ⟨fun f own => governs.other f (known_of_flag own) (flag_of_one different own) _, fun own => absurd own different,
        fun own => absurd own different, fun own => absurd own different, fun _ => rfl⟩
    · exact ⟨rfl, rfl, rfl, governs.beside _⟩
  | connections =>
    obtain malformed | ⟨reachable, merged⟩ := mergeConnections_eq d
    · exact .inl malformed
    have governs := governs_linked reachable (ModemState.clientsOf d)
    let reported : ModemState :=
      { flags := linked reachable (ModemState.clientsOf d) .none, clients := ModemState.clientsOf d }
    refine .inr ⟨reported, fun s => ⟨_, merged s, ?_⟩⟩
    constructor
    · exact ⟨fun f own => governs.own f own _ _, nofun, nofun, nofun, fun _ => rfl⟩
    · intro j different
      exact ⟨fun f own => governs.other f (known_of_flag own) (flag_of_one different own) _, fun _ => rfl, fun _ => rfl,
        fun _ => rfl, fun own => absurd own different⟩
    · exact ⟨rfl, rfl, rfl, governs.beside _⟩
  | mux =>
    obtain malformed | ⟨on, merged⟩ := mergeMux_eq d
    · exact .inl malformed
    have governs : mux.Governs (·.set .muxOn on) := governs_set rfl (by decide) on
    refine .inr ⟨{ flags := ModemFlags.none.set .muxOn on }, fun s => ⟨_, merged s, ?_⟩⟩
    constructor
    · exact ⟨fun f own => governs.own f own _ _, nofun, nofun, nofun, nofun⟩
    · intro j different
      exact ⟨fun f own => governs.other f (known_of_flag own) (flag_of_one different own) _, fun _ => rfl, fun _ => rfl,
        fun _ => rfl, fun _ => rfl⟩
    · exact ⟨rfl, rfl, rfl, governs.beside _⟩

end Inquiry
end AirMonitor
