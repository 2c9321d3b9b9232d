import DianService.Domain.Addresses
import DianService.Domain.Models

/-
  Application: where webhooks may go. `DestinationPolicy::check` looks at the URL when it is
  registered, `HttpWebhookSender::vetted_addresses` at the addresses of its host when it is sent
  to. Both ask `is_public_ip`.
-/

namespace DianService

/-- What the code uses of `url::Url`. -/
inductive Host where
  | domain (name : String)
  | ipv4 (ip : Ipv4Addr)
  | ipv6 (ip : Ipv6Addr)

structure Url where
  text : String
  scheme : String
  username : String
  password : Option String
  host : Option Host
  port_or_known_default : Option Nat

structure SocketAddr where
  ip : IpAddr
  port : Nat

/-- `Url::parse`, `lookup_host` and the `Display` of addresses. -/
structure Network where
  parse : String → Except String Url
  lookup_host : String → Nat → Except String (List SocketAddr)
  display : IpAddr → String

/-- The address that a host is. -/
def Host.ip? : Host → Option IpAddr
  | .domain _ => none
  | .ipv4 ip => some (.v4 ip)
  | .ipv6 ip => some (.v6 ip)

/-! ## When a webhook is registered -/

structure DestinationPolicy where
  allow_http : Bool
  allow_private_networks : Bool

namespace DestinationPolicy

def invalid (m : String) : Except DomainError Unit :=
  .error (.validation ("target_url invalida: " ++ m))

/-- `trim_end_matches('.')` and `to_ascii_lowercase` -/
def normalized (domain : String) : List Char :=
  (domain.toList.reverse.dropWhile (· = '.')).reverse.map Char.toLower

def checkHost : Option Host → Except DomainError Unit
  | none => invalid "sin host"
  | some (.domain domain) =>
      if normalized domain = "localhost".toList ∨
          ".localhost".toList.isSuffixOf (normalized domain) ∨ '.' ∉ normalized domain then
        invalid "el host debe ser un dominio publico"
      else .ok ()
  | some (.ipv4 ip) =>
      if isPublicIp (.v4 ip) then .ok () else invalid "la direccion IP no es publica"
  | some (.ipv6 ip) =>
      if isPublicIp (.v6 ip) then .ok () else invalid "la direccion IP no es publica"

def check (net : Network) (policy : DestinationPolicy) (target_url : String) :
    Except DomainError Unit :=
  if 1024 < target_url.utf8ByteSize then invalid "demasiado larga"
  else
    match net.parse target_url with
    | .error e => invalid e
    | .ok url =>
        if ¬ (url.scheme = "https" ∨ (url.scheme = "http" ∧ policy.allow_http)) then
          invalid "debe usar https"
        else if url.username ≠ "" ∨ url.password.isSome then
          invalid "no puede incluir credenciales"
        else if policy.allow_private_networks then .ok ()
        else checkHost url.host

end DestinationPolicy

/-! ## When it is sent to -/

structure HttpWebhookSender where
  allow_http : Bool
  allow_private_networks : Bool

namespace HttpWebhookSender

def rejected {α : Type} (message : String) : Except DomainError α :=
  .error (.validation ("Webhook destination rejected: " ++ message))

/-- The addresses of the host, and its name if it is looked up. -/
def resolve (net : Network) (url : Url) (port : Nat) :
    Except DomainError (Option String × List SocketAddr) :=
  match url.host with
  | some (.domain domain) =>
      match net.lookup_host domain port with
      | .ok resolved => .ok (some domain, resolved)
      | .error e => .error (.internal ("DNS resolution of " ++ domain ++ " failed: " ++ e))
  | some (.ipv4 ip) => .ok (none, [⟨.v4 ip, port⟩])
  | some (.ipv6 ip) => .ok (none, [⟨.v6 ip, port⟩])
  | none => rejected "no host"

/-- All of the addresses, if all may be connected to. -/
def vet (net : Network) (sender : HttpWebhookSender) (url : Url)
    (resolved : Option String × List SocketAddr) :
    Except DomainError (Option String × List SocketAddr) :=
  if resolved.2 = [] then .error (.internal (url.text ++ " did not resolve"))
  else if sender.allow_private_networks then .ok resolved
  else
    match resolved.2.find? fun a => !isPublicIp a.ip with
    | some internal => rejected (url.text ++ " resolves to a non-public address (" ++
        net.display internal.ip ++ ")")
    | none => .ok resolved

def vettedAddresses (net : Network) (sender : HttpWebhookSender) (url : Url) :
    Except DomainError (Option String × List SocketAddr) :=
  if ¬ (url.scheme = "https" ∨ (url.scheme = "http" ∧ sender.allow_http)) then
    rejected ("scheme '" ++ url.scheme ++ "' is not allowed")
  else
    match url.port_or_known_default with
    | none => rejected "no port"
    | some port => (resolve net url port).bind (vet net sender url)

end HttpWebhookSender

/-! ## Where deliveries go -/

section Deliveries

variable {net : Network}

theorem invalid_ne_ok (m : String) : DestinationPolicy.invalid m ≠ .ok () := by
  intro h
  cases h

theorem rejected_ne_ok {α : Type} (m : String) (x : α) : HttpWebhookSender.rejected m ≠ .ok x := by
  intro h
  cases h

theorem checkHost_public {host : Host} {ip : IpAddr} (hip : host.ip? = some ip)
    (h : DestinationPolicy.checkHost (some host) = .ok ()) : isPublicIp ip = true := by
  have hcheck : (if isPublicIp ip then .ok () else
      DestinationPolicy.invalid "la direccion IP no es publica") = .ok () := by
    cases host with
    | domain name => cases hip
    | ipv4 addr =>
      cases hip
      exact h
    | ipv6 addr =>
      cases hip
      exact h
  by_contra hpublic
  rw [if_neg hpublic] at hcheck
  exact invalid_ne_ok _ hcheck

/-- A URL that is registered names no address but a public one. -/
theorem check_public {policy : DestinationPolicy} {target_url : String} {url : Url} {host : Host}
    {ip : IpAddr} (hprivate : policy.allow_private_networks = false)
    (hurl : net.parse target_url = .ok url) (hhost : url.host = some host)
    (hip : host.ip? = some ip) (h : policy.check net target_url = .ok ()) :
    isPublicIp ip = true := by
  apply checkHost_public hip
  rw [← hhost]
  unfold DestinationPolicy.check at h
  rw [hurl, hprivate] at h
  by_cases hlong : 1024 < target_url.utf8ByteSize
  · rw [if_pos hlong] at h
    exact absurd h (invalid_ne_ok _)
  · rw [if_neg hlong] at h
    dsimp only at h
    split_ifs at h with hscheme hcredentials hnetworks
    · exact absurd h (invalid_ne_ok _)
    · exact hnetworks.elim
    · exact h
    · exact absurd h (invalid_ne_ok _)

/-- Connections are made to public addresses only. -/
theorem vetted_public {sender : HttpWebhookSender} {url : Url} {domain : Option String}
    {addresses : List SocketAddr} (hprivate : sender.allow_private_networks = false)
    (h : sender.vettedAddresses net url = .ok (domain, addresses)) :
    ∀ a ∈ addresses, isPublicIp a.ip = true := by
  have hvet : ∃ resolved, sender.vet net url resolved = .ok (domain, addresses) := by
    unfold HttpWebhookSender.vettedAddresses at h
    split at h
    · exact absurd h (rejected_ne_ok _ _)
    · split at h
      · exact absurd h (rejected_ne_ok _ _)
      · rename_i port hport
        cases hresolve : HttpWebhookSender.resolve net url port with
        | error e =>
          rw [hresolve] at h
          cases h
        | ok resolved =>
          rw [hresolve] at h
          exact ⟨resolved, h⟩
  obtain ⟨resolved, hvet⟩ := hvet
  unfold HttpWebhookSender.vet at hvet
  split at hvet
  · cases hvet
  · rw [hprivate, if_neg Bool.false_ne_true] at hvet
    split at hvet
    · exact absurd hvet (rejected_ne_ok _ _)
    · rename_i hfind
      cases hvet
      intro a ha
      simpa using List.find?_eq_none.mp hfind a ha

end Deliveries

/-- The addresses that pass the checks are routable but for those that the filter overlooks. -/
theorem destinations_routable_iff (net : Network) :
    (∀ ip, (isPublicIp ip = true → Routable ip) ↔ ¬ Overlooked ip) ∧
    (∀ (policy : DestinationPolicy) target_url url host ip,
      policy.allow_private_networks = false → net.parse target_url = .ok url →
      url.host = some host → host.ip? = some ip → policy.check net target_url = .ok () →
      (Routable ip ↔ ¬ Overlooked ip)) ∧
    ∀ (sender : HttpWebhookSender) url domain (addresses : List SocketAddr),
      sender.allow_private_networks = false →
      sender.vettedAddresses net url = .ok (domain, addresses) →
      ∀ a ∈ addresses, (Routable a.ip ↔ ¬ Overlooked a.ip) := by
  refine ⟨public_routable_iff, fun policy target_url url host ip hprivate hurl hhost hip h => ?_,
    fun sender url domain addresses hprivate h a ha => ?_⟩
  · have hpublic := check_public hprivate hurl hhost hip h
    rw [← public_routable_iff, forall_prop_of_true hpublic]
  · have hpublic := vetted_public hprivate h a ha
    rw [← public_routable_iff, forall_prop_of_true hpublic]

def sampleUrl (host : Host) : Url where
  text := "https://8.8.8.8/hook"
  scheme := "https"
  username := ""
  password := none
  host := some host
  port_or_known_default := some 443

/-- Every URL has this host. -/
def sampleNetwork (host : Host) : Network where
  parse _ := .ok (sampleUrl host)
  lookup_host _ _ := .ok []
  display _ := ""

def sampleAddr : Ipv4Addr := ⟨8, 8, 8, 8⟩

/-- Deliveries to 8.8.8.8 pass both checks, and reach a routable address. -/
theorem sample_delivery_routable : Routable (.v4 sampleAddr) ∧
    ∀ a ∈ [(⟨.v4 sampleAddr, 443⟩ : SocketAddr)], Routable a.ip := by
  obtain ⟨-, hcheck, hvetted⟩ := destinations_routable_iff (sampleNetwork (.ipv4 sampleAddr))
  exact ⟨(hcheck ⟨false, false⟩ "https://8.8.8.8/hook" _ _ _ rfl rfl rfl rfl (by decide)).mpr id,
    fun a ha => (hvetted ⟨false, false⟩ (sampleUrl (.ipv4 sampleAddr)) none _ rfl (by rfl) a ha).mpr
      (by obtain rfl := List.mem_singleton.mp ha; exact id)⟩

/-- 10.0.0.1 behind a 6to4 relay passes as public. -/
theorem private_6to4_public : ¬ ∀ ip, isPublicIp ip = true → Routable ip := by
  intro h
  have hroutable := h (.v6 ⟨0x2002, 0x0a00, 0x0001, 0, 0, 0, 0, 0⟩) (by decide)
  refine hroutable.2 sixToFour (by simp) ⟨by decide, ?_⟩
  exact ⟨⟨0x0A000000, 8⟩, by simp [specialBlocks4], by decide⟩

end DianService
