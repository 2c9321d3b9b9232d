import DianService.Crypto.Wssec
import DianService.Lib.Xml.Reader
import DianService.Lib.Machine

/-
  Crypto: signing while the secrets of tenants are rotated. A signing operation takes its
  certificate with one call of the provider and its signature with another, and each of the two
  looks the secret up for itself, in the cache or in Vault. Any number of operations share the
  provider; they interleave with each other, with rotations and with the clock.
-/

namespace DianService

open Lib Lib.Prog Lib.Xml

/-! ## Operations and where they stand -/

/-- The providers whose secrets are in Vault. -/
inductive VaultMode where
  | kv
  | transit
  deriving DecidableEq

inductive SigningOperation where
  | document (xml key_ref : String) (uuid : Uuid) (now : Time)
  | envelope (soap key_ref : String) (uuid : Uuid) (now : Time)

def SigningOperation.key_ref : SigningOperation → String
  | .document _ key_ref _ _ => key_ref
  | .envelope _ key_ref _ _ => key_ref

/-- A call of the provider that was answered, with what it asked. -/
structure Consulted where
  exchange : Exchange ProviderCall ProviderReply
  asked : Prog.Trace VaultCall VaultReply

/-- An operation has ended, or is in a call of the provider, of which `rest` is left. -/
inductive Stage where
  | ended (result : Except CryptoError String)
  | calling (c : ProviderCall)
      (k : ProviderReply c → Prog ProviderCall ProviderReply (Except CryptoError String))
      (asked : Prog.Trace VaultCall VaultReply) (rest : Prog VaultCall VaultReply (ProviderReply c))

structure Signing where
  operation : SigningOperation
  past : List Consulted
  stage : Stage

/-- `secrets` has the versions of a secret, the oldest first; `cache` when an entry was stored. -/
structure SigningProcess where
  now : Time
  secrets : String → List Value
  cache : String → Option (Time × TransitIdentity)
  signings : List Signing

/-- What the code does not decide: whether Vault can be read, and what Transit answers. -/
structure VaultWorld where
  fault : Option CryptoError
  transit : Except CryptoError String

inductive SigningAction where
  | tick (d : Nat)
  | rotate (path : String) (secret : Value)
  | start (operation : SigningOperation)
  | work (i : Nat) (w : VaultWorld)

section Process

variable (crates : CryptoCrates) (q : QuickXml) (buffer_positions : String → List Nat)
  (mode : VaultMode)

def SigningOperation.program : SigningOperation → SigningService String
  | .document xml key_ref uuid now => xadesSign crates q xml key_ref uuid now
  | .envelope soap key_ref uuid now =>
      signSoapEnvelope crates q buffer_positions soap key_ref uuid now

def VaultMode.provider :
    VaultMode → (c : ProviderCall) → Prog VaultCall VaultReply (ProviderReply c)
  | .kv => vaultKvKeyProvider crates
  | .transit => vaultTransitProvider crates

/-- An operation goes on to its next call. -/
def Stage.enter : Prog ProviderCall ProviderReply (Except CryptoError String) → Stage
  | .done result => .ended result
  | .call c k => .calling c k [] (mode.provider crates c)

def Signing.start (operation : SigningOperation) : Signing :=
  ⟨operation, [], Stage.enter crates mode (operation.program crates q buffer_positions).run⟩

/-- What Vault and the cache answer. -/
def SigningProcess.reply (s : SigningProcess) (w : VaultWorld) : (v : VaultCall) → VaultReply v
  | .kvRead path =>
      match w.fault, (s.secrets path).getLast? with
      | none, some secret => .ok secret
      | some e, _ => .error e
      | none, none => .error (.vault "Vault returned status 404 Not Found: ")
  | .transitSign .. => w.transit
  | .cached key_ref => (s.cache key_ref).map fun e => (s.now - e.1, e.2)
  | .cache .. => ()

/-- What a call leaves of the cache. -/
def SigningProcess.store (s : SigningProcess) : VaultCall → SigningProcess
  | .cache key_ref identity =>
      { s with cache := Function.update s.cache key_ref (some (s.now, identity)) }
  | _ => s

def signingStep (s : SigningProcess) : SigningAction → Option SigningProcess
  | .tick d => some { s with now := s.now + d }
  | .rotate path secret =>
      some { s with secrets := Function.update s.secrets path (s.secrets path ++ [secret]) }
  | .start operation =>
      some { s with signings := s.signings ++ [.start crates q buffer_positions mode operation] }
  | .work i w =>
      match s.signings[i]? with
      | none => none
      | some t =>
          match t.stage with
          | .ended _ => none
          | .calling c k asked (.done r) =>
              some { s with
                signings := s.signings.set i
                  ⟨t.operation, t.past ++ [⟨⟨c, r⟩, asked⟩], Stage.enter crates mode (k r)⟩ }
          | .calling c k asked (.call v rest) =>
              some { s.store v with
                signings := s.signings.set i
                  ⟨t.operation, t.past,
                    .calling c k (asked ++ [⟨v, s.reply w v⟩]) (rest (s.reply w v))⟩ }

/-- A process from its start: nothing is cached. -/
def signingProcess : Machine SigningProcess SigningAction where
  start s := ∃ now secrets, s = ⟨now, secrets, fun _ => none, []⟩
  step := signingStep crates q buffer_positions mode

end Process

/-! ## One version -/

section Versions

variable (crates : CryptoCrates) (q : QuickXml) (buffer_positions : String → List Nat)

def certificateOf (secret : Value) : Except CryptoError String :=
  secretField secret "certificate" >>= certificateFromPem crates

def privateKeyOf (secret : Value) : Except CryptoError RsaKeyPair :=
  secretField secret "private_key" >>= parsePrivateKey crates

/-- The value is the signature of the data with the key of the secret. -/
def SignedWith (secret : Value) (data value : List UInt8)
    (asked : Prog.Trace VaultCall VaultReply) : VaultMode → Prop
  | .kv => ∃ key, privateKeyOf crates secret = .ok key ∧ signInProcess crates key data = .ok value
  | .transit => ∃ key_name reply encoded, secretField secret "transit_key" = .ok key_name ∧
      (⟨.transitSign key_name data, .ok reply⟩ : Exchange VaultCall VaultReply) ∈ asked ∧
      transitSignature? reply = some encoded ∧ crates.base64_decode encoded = .ok value

/-- A signature that was produced: its certificate and its key are those of one version of the
    secret. -/
def OneVersion (mode : VaultMode) (s : SigningProcess) (t : Signing) : Prop :=
  ∀ signed, t.stage = .ended (.ok signed) → ∃ certificate data value asked₁ asked₂,
    t.past = [⟨⟨.getCertificate t.operation.key_ref, .ok certificate⟩, asked₁⟩,
      ⟨⟨.signRsaSha256 t.operation.key_ref data, .ok value⟩, asked₂⟩] ∧
    Runs (t.operation.program crates q buffer_positions).run (t.past.map Consulted.exchange)
      (.ok signed) ∧
    ∃ secret ∈ s.secrets t.operation.key_ref, certificateOf crates secret = .ok certificate ∧
      SignedWith crates secret data value asked₂ mode

end Versions

/-! ## What the second call finds -/

def ProviderCall.signs : ProviderCall → Bool
  | .signRsaSha256 .. => true
  | .getCertificate _ => false

def certificate? : Exchange ProviderCall ProviderReply → Option String
  | ⟨.getCertificate _, .ok certificate⟩ => some certificate
  | _ => none

/-- The certificate that an operation holds. -/
def Signing.certificate? (t : Signing) : Option String :=
  t.past.findSome? fun e => DianService.certificate? e.exchange

/-- What an operation asks next while it is having its data signed. -/
def Signing.asksForKey? (t : Signing) : Option VaultCall :=
  match t.stage with
  | .calling (.signRsaSha256 ..) _ _ (.call v _) => some v
  | _ => none

section Finds

variable (crates : CryptoCrates) (mode : VaultMode)

/-- The secret has what the provider signs with. -/
def Usable (secret : Value) : Prop :=
  match mode with
  | .kv => (privateKeyOf crates secret).isOk = true
  | .transit => (identityOf crates secret).isOk = true

/-- What the lookup finds is a secret with this certificate. -/
def SigningProcess.Finds (s : SigningProcess) (certificate : String) : VaultCall → Prop
  | .cached key_ref => ∀ e ∈ s.cache key_ref, s.now - e.1 < IDENTITY_TTL →
      e.2.certificate = certificate
  | .kvRead path => ∀ secret ∈ (s.secrets path).getLast?, Usable crates mode secret →
      certificateOf crates secret = .ok certificate
  | _ => True

/-- An operation that looks its secret up again, to sign, finds the one whose certificate it
    holds. -/
def Steady (s : SigningProcess) : SigningAction → Prop
  | .work i _ => ∀ t ∈ s.signings[i]?, ∀ certificate ∈ t.certificate?, ∀ v ∈ t.asksForKey?,
      s.Finds crates mode certificate v
  | _ => True

/-- An answer about a secret with this certificate, if it is one that can be signed with. -/
def Agrees (certificate : String) : Exchange VaultCall VaultReply → Prop
  | ⟨.cached _, some (elapsed, identity)⟩ => elapsed < IDENTITY_TTL →
      identity.certificate = certificate
  | ⟨.kvRead _, .ok secret⟩ => Usable crates mode secret →
      certificateOf crates secret = .ok certificate
  | _ => True

/-- What was answered about a secret comes from one of its versions. -/
def Honest (secrets : String → List Value) : Exchange VaultCall VaultReply → Prop
  | ⟨.cached key_ref, some (_, identity)⟩ => ∃ secret ∈ secrets key_ref,
      identityOf crates secret = .ok identity
  | ⟨.kvRead path, .ok secret⟩ => secret ∈ secrets path
  | _ => True

end Finds

/-! ## The calls of a provider -/

section Providers

variable {crates : CryptoCrates} {P : Prog.Trace VaultCall VaultReply → VaultCall → Prop}
  {t : Prog.Trace VaultCall VaultReply} {key_ref : String} {data : List UInt8}

/-- An identity is cached only as the secret has it. -/
def CacheCall (crates : CryptoCrates) (t : Prog.Trace VaultCall VaultReply) : VaultCall → Prop
  | .cache key_ref identity => ∃ secret,
      (⟨.kvRead key_ref, .ok secret⟩ : Exchange VaultCall VaultReply) ∈ t ∧
        identityOf crates secret = .ok identity
  | _ => True

@[simp] theorem wp_ofResult {α : Type} (r : Except CryptoError α)
    {Q : Prog.Trace VaultCall VaultReply → Except CryptoError α → Prop} :
    wp P Q t (ofResult r).run ↔ Q t r := Iff.rfl

theorem wp_readSecret {Q : Prog.Trace VaultCall VaultReply → Except CryptoError Value → Prop}
    (hP : ∀ t, P t (.kvRead key_ref))
    (hok : ∀ secret, Q (t ++ [⟨.kvRead key_ref, .ok secret⟩]) (.ok secret))
    (herror : ∀ t e, Q t (.error e)) : wp P Q t (readSecret key_ref).run := by
  unfold readSecret
  split
  · refine ⟨hP t, fun r => ?_⟩
    cases r with
    | error e => exact herror _ e
    | ok secret => exact hok secret
  · exact herror _ _

/-- How an identity was come by. -/
def IdentifiedBy (crates : CryptoCrates) (key_ref : String) (t : Prog.Trace VaultCall VaultReply)
    (identity : TransitIdentity) : Prop :=
  (∃ elapsed, elapsed < IDENTITY_TTL ∧
    (⟨.cached key_ref, some (elapsed, identity)⟩ : Exchange VaultCall VaultReply) ∈ t) ∨
  ∃ secret, (⟨.kvRead key_ref, .ok secret⟩ : Exchange VaultCall VaultReply) ∈ t ∧
    identityOf crates secret = .ok identity

theorem wp_fetchIdentity
    {Q : Prog.Trace VaultCall VaultReply → Except CryptoError TransitIdentity → Prop}
    (hok : ∀ t identity, IdentifiedBy crates key_ref t identity → Q t (.ok identity))
    (herror : ∀ t e, Q t (.error e)) :
    wp (CacheCall crates) Q t (fetchIdentity crates key_ref).run := by
  simp only [fetchIdentity, wp_run_bind]
  refine wp_readSecret (fun _ => trivial) (fun secret => ?_) herror
  have hmem : (⟨.kvRead key_ref, .ok secret⟩ : Exchange VaultCall VaultReply) ∈
      t ++ [⟨.kvRead key_ref, .ok secret⟩] := List.mem_append_right _ (List.mem_singleton_self _)
  simp only [wp_ofResult]
  cases hid : identityOf crates secret with
  | error e => exact herror _ e
  | ok identity =>
      refine ⟨⟨secret, hmem, hid⟩, fun _ => hok _ _ (.inr ⟨secret, ?_, hid⟩)⟩
      exact List.mem_append_left _ hmem

theorem wp_identity
    {Q : Prog.Trace VaultCall VaultReply → Except CryptoError TransitIdentity → Prop}
    (hok : ∀ t identity, IdentifiedBy crates key_ref t identity → Q t (.ok identity))
    (herror : ∀ t e, Q t (.error e)) :
    wp (CacheCall crates) Q t (identity crates key_ref).run := by
  simp only [identity, wp_run_bind, ExceptT.run_lift, wp_map_ok, wp_request]
  refine ⟨trivial, fun r => ?_⟩
  cases r with
  | none => exact wp_fetchIdentity hok herror
  | some e =>
      obtain ⟨elapsed, identity⟩ := e
      simp only
      split
      · rename_i hlt
        refine hok _ _ (.inl ⟨elapsed, hlt, ?_⟩)
        exact List.mem_append_right _ (List.mem_singleton_self _)
      · exact wp_fetchIdentity hok herror

theorem wp_transitSign {key_name : String}
    {Q : Prog.Trace VaultCall VaultReply → Except CryptoError (List UInt8) → Prop}
    (hok : ∀ reply encoded value, transitSignature? reply = some encoded →
      crates.base64_decode encoded = .ok value →
      Q (t ++ [⟨.transitSign key_name data, .ok reply⟩]) (.ok value))
    (herror : ∀ t e, Q t (.error e)) :
    wp (CacheCall crates) Q t (transitSignPkcs1Sha256 crates key_name data).run := by
  unfold transitSignPkcs1Sha256
  split
  · simp only [wp_run_bind]
    refine ⟨trivial, fun r => ?_⟩
    cases r with
    | error e => exact herror _ e
    | ok reply =>
        simp only [wp_done]
        cases hsig : transitSignature? reply with
        | none => exact herror _ _
        | some encoded =>
            simp only [wp_ofResult]
            cases hdec : crates.base64_decode encoded with
            | error e => exact herror _ _
            | ok value => exact hok reply encoded value hsig hdec
  · exact herror _ _

/-- How the value of a signature was come by. -/
def SignedAfter (crates : CryptoCrates) (key_ref : String) (data : List UInt8)
    (t : Prog.Trace VaultCall VaultReply) (value : List UInt8) : VaultMode → Prop
  | .kv => ∃ secret, (⟨.kvRead key_ref, .ok secret⟩ : Exchange VaultCall VaultReply) ∈ t ∧
      SignedWith crates secret data value t .kv
  | .transit => ∃ identity reply encoded, IdentifiedBy crates key_ref t identity ∧
      (⟨.transitSign identity.transit_key data, .ok reply⟩ : Exchange VaultCall VaultReply) ∈ t ∧
      transitSignature? reply = some encoded ∧ crates.base64_decode encoded = .ok value

theorem IdentifiedBy.append {identity : TransitIdentity} {u : Prog.Trace VaultCall VaultReply}
    (h : IdentifiedBy crates key_ref t identity) :
    IdentifiedBy crates key_ref (t ++ u) identity := by
  rcases h with ⟨elapsed, hlt, hmem⟩ | ⟨secret, hmem, hid⟩
  · exact .inl ⟨elapsed, hlt, List.mem_append_left _ hmem⟩
  · exact .inr ⟨secret, List.mem_append_left _ hmem, hid⟩

theorem wp_sign (mode : VaultMode) : wp (CacheCall crates)
    (fun t r => ∀ value, r = .ok value → SignedAfter crates key_ref data t value mode) []
    (mode.provider crates (.signRsaSha256 key_ref data)) := by
  cases mode with
  | kv =>
      simp only [VaultMode.provider, vaultKvKeyProvider, wp_run_bind]
      refine wp_readSecret (fun _ => trivial) (fun secret => ?_) (fun t e => by simp)
      simp only [wp_ofResult, List.nil_append]
      cases hkey : secretField secret "private_key" >>= parsePrivateKey crates with
      | error e => simp
      | ok key => exact fun value hvalue => ⟨secret, List.mem_singleton_self _, key, hkey, hvalue⟩
  | transit =>
      simp only [VaultMode.provider, vaultTransitProvider, wp_run_bind]
      refine wp_identity (fun t identity hid => ?_) (fun t e => by simp)
      refine wp_transitSign (fun reply encoded value hsig hdec => ?_) (fun t e => by simp)
      rintro _ ⟨⟩
      refine ⟨identity, reply, encoded, hid.append, ?_, hsig, hdec⟩
      exact List.mem_append_right _ (List.mem_singleton_self _)

theorem wp_provider (mode : VaultMode) (c : ProviderCall) :
    wp (CacheCall crates) (fun _ _ => True) [] (mode.provider crates c) := by
  cases c with
  | signRsaSha256 key_ref data => exact wp_post (wp_sign mode) fun _ _ _ => trivial
  | getCertificate key_ref =>
      cases mode with
      | kv =>
          simp only [VaultMode.provider, vaultKvKeyProvider, wp_run_bind]
          exact wp_readSecret (fun _ => trivial) (fun secret => trivial) fun t e => trivial
      | transit =>
          simp only [VaultMode.provider, vaultTransitProvider, wp_run_bind]
          exact wp_identity (fun t identity _ => trivial) fun t e => trivial

end Providers

/-! ## The calls of an operation -/

section Operations

variable {crates : CryptoCrates} {q : QuickXml} {buffer_positions : String → List Nat}
  {P : Prog.Trace ProviderCall ProviderReply → ProviderCall → Prop}
  {t : Prog.Trace ProviderCall ProviderReply} {key_ref : String}

@[simp] theorem wp_pureResult {α : Type} (r : Except CryptoError α)
    {Q : Prog.Trace ProviderCall ProviderReply → Except CryptoError α → Prop} :
    wp P Q t (pureResult r).run ↔ Q t r := Iff.rfl

@[simp] theorem wp_getCertificate
    {Q : Prog.Trace ProviderCall ProviderReply → Except CryptoError String → Prop} :
    wp P Q t (getCertificate key_ref).run ↔
      P t (.getCertificate key_ref) ∧ ∀ r, Q (t ++ [⟨.getCertificate key_ref, r⟩]) r := Iff.rfl

@[simp] theorem wp_signRsaSha256 {data : List UInt8}
    {Q : Prog.Trace ProviderCall ProviderReply → Except CryptoError (List UInt8) → Prop} :
    wp P Q t (signRsaSha256 key_ref data).run ↔ P t (.signRsaSha256 key_ref data) ∧
      ∀ r, Q (t ++ [⟨.signRsaSha256 key_ref data, r⟩]) r := Iff.rfl

/-- The certificate first, then the signature, once each. -/
def SigningCall (key_ref : String) (t : Prog.Trace ProviderCall ProviderReply) :
    ProviderCall → Prop
  | .getCertificate k => k = key_ref ∧ t = []
  | .signRsaSha256 k _ => k = key_ref ∧
      ∃ certificate, t = [⟨.getCertificate key_ref, .ok certificate⟩]

def SigningEnd (key_ref : String) (t : Prog.Trace ProviderCall ProviderReply)
    (r : Except CryptoError String) : Prop :=
  ∀ signed, r = .ok signed → ∃ certificate data value,
    t = [⟨.getCertificate key_ref, .ok certificate⟩, ⟨.signRsaSha256 key_ref data, .ok value⟩]

theorem signingEnd_error (e : CryptoError) : SigningEnd key_ref t (.error e) := by
  rintro _ ⟨⟩

theorem signing_document (xml key_ref : String) (uuid : Uuid) (now : Time) :
    wp (SigningCall key_ref) (SigningEnd key_ref) []
      (xadesSign crates q xml key_ref uuid now).run := by
  unfold xadesSign
  split
  · exact signingEnd_error _
  · simp only [wp_run_bind, wp_run_pure, wp_getCertificate, wp_pureResult, wp_signRsaSha256,
      List.nil_append]
    refine ⟨⟨rfl, rfl⟩, fun certificate => ?_⟩
    cases certificate with
    | error e => exact signingEnd_error _
    | ok certificate =>
        simp only
        split
        · split
          · refine ⟨⟨rfl, certificate, rfl⟩, fun value => ?_⟩
            cases value with
            | error e => exact signingEnd_error _
            | ok value => exact fun _ _ => ⟨certificate, _, value, rfl⟩
          · exact signingEnd_error _
        · exact signingEnd_error _

theorem signing_envelope (soap key_ref : String) (uuid : Uuid) (now : Time) :
    wp (SigningCall key_ref) (SigningEnd key_ref) []
      (signSoapEnvelope crates q buffer_positions soap key_ref uuid now).run := by
  unfold signSoapEnvelope
  split
  · exact signingEnd_error _
  · simp only [wp_run_bind, wp_run_pure, wp_getCertificate, wp_pureResult, wp_signRsaSha256,
      List.nil_append]
    split
    · split
      · refine ⟨⟨rfl, rfl⟩, fun certificate => ?_⟩
        cases certificate with
        | error e => exact signingEnd_error _
        | ok certificate =>
            simp only
            split
            · refine ⟨⟨rfl, certificate, rfl⟩, fun value => ?_⟩
              cases value with
              | error e => exact signingEnd_error _
              | ok value => exact fun _ _ => ⟨certificate, _, value, rfl⟩
            · exact signingEnd_error _
      · exact signingEnd_error _
    · exact signingEnd_error _

theorem signing_calls (operation : SigningOperation) :
    wp (SigningCall operation.key_ref) (SigningEnd operation.key_ref) []
      (operation.program crates q buffer_positions).run := by
  cases operation with
  | document xml key_ref uuid now => exact signing_document xml key_ref uuid now
  | envelope soap key_ref uuid now => exact signing_envelope soap key_ref uuid now

end Operations

/-! ## One step -/

section Step

variable {crates : CryptoCrates} {q : QuickXml} {buffer_positions : String → List Nat}
  {mode : VaultMode} {s s' : SigningProcess} {a : SigningAction}

inductive SigningStep (crates : CryptoCrates) (q : QuickXml) (buffer_positions : String → List Nat)
    (mode : VaultMode) (s : SigningProcess) : SigningAction → SigningProcess → Prop where
  | tick {d : Nat} : SigningStep crates q buffer_positions mode s (.tick d)
      { s with now := s.now + d }
  | rotate {path : String} {secret : Value} :
      SigningStep crates q buffer_positions mode s (.rotate path secret)
        { s with secrets := Function.update s.secrets path (s.secrets path ++ [secret]) }
  | start {operation : SigningOperation} :
      SigningStep crates q buffer_positions mode s (.start operation)
        { s with signings := s.signings ++ [.start crates q buffer_positions mode operation] }
  | answered {i : Nat} {w : VaultWorld} {t : Signing} {c : ProviderCall}
      {k : ProviderReply c → Prog ProviderCall ProviderReply (Except CryptoError String)}
      {asked : Prog.Trace VaultCall VaultReply} {r : ProviderReply c}
      (ht : s.signings[i]? = some t) (hstage : t.stage = .calling c k asked (.done r)) :
      SigningStep crates q buffer_positions mode s (.work i w)
        { s with
          signings := s.signings.set i
            ⟨t.operation, t.past ++ [⟨⟨c, r⟩, asked⟩], Stage.enter crates mode (k r)⟩ }
  | asked {i : Nat} {w : VaultWorld} {t : Signing} {c : ProviderCall}
      {k : ProviderReply c → Prog ProviderCall ProviderReply (Except CryptoError String)}
      {asked : Prog.Trace VaultCall VaultReply} {v : VaultCall}
      {rest : VaultReply v → Prog VaultCall VaultReply (ProviderReply c)}
      (ht : s.signings[i]? = some t) (hstage : t.stage = .calling c k asked (.call v rest)) :
      SigningStep crates q buffer_positions mode s (.work i w)
        { s.store v with
          signings := s.signings.set i
            ⟨t.operation, t.past,
              .calling c k (asked ++ [⟨v, s.reply w v⟩]) (rest (s.reply w v))⟩ }

theorem signingStep_inv (h : signingStep crates q buffer_positions mode s a = some s') :
    SigningStep crates q buffer_positions mode s a s' := by
  cases a with
  | tick d =>
      cases h
      exact .tick
  | rotate path secret =>
      cases h
      exact .rotate
  | start operation =>
      cases h
      exact .start
  | work i w =>
      simp only [signingStep] at h
      split at h
      · cases h
      · rename_i t ht
        split at h
        · cases h
        · cases h
          exact .answered ht ‹_›
        · cases h
          exact .asked ht ‹_›

/-! ### What an operation knows -/

/-- The program from where the operation stands. -/
def Stage.program : Stage → Prog ProviderCall ProviderReply (Except CryptoError String)
  | .ended result => .done result
  | .calling c k _ _ => .call c k

def Stage.asked : Stage → Prog.Trace VaultCall VaultReply
  | .ended _ => []
  | .calling _ _ asked _ => asked

def Stage.askedForKey : Stage → Prog.Trace VaultCall VaultReply
  | .ended _ => []
  | .calling c _ asked _ => if c.signs then asked else []

/-- Everything that was asked while the data was being signed. -/
def Signing.askedForKey (t : Signing) : Prog.Trace VaultCall VaultReply :=
  (t.past.filter fun e => e.exchange.call.signs).flatMap Consulted.asked ++ t.stage.askedForKey

structure Signing.Sound (crates : CryptoCrates) (q : QuickXml)
    (buffer_positions : String → List Nat) (mode : VaultMode) (secrets : String → List Value)
    (t : Signing) : Prop where
  path : Path (t.operation.program crates q buffer_positions).run
    (t.past.map Consulted.exchange) t.stage.program
  current : ∀ c k asked rest, t.stage = .calling c k asked rest →
    Path (mode.provider crates c) asked rest
  consulted : ∀ e ∈ t.past, Runs (mode.provider crates e.exchange.call) e.asked e.exchange.reply
  honest : ∀ x ∈ t.past.flatMap Consulted.asked ++ t.stage.asked, Honest crates secrets x
  agrees : ∀ certificate ∈ t.certificate?, ∀ x ∈ t.askedForKey, Agrees crates mode certificate x

structure SigningProcess.Sound (crates : CryptoCrates) (q : QuickXml)
    (buffer_positions : String → List Nat) (mode : VaultMode) (s : SigningProcess) : Prop where
  cache : ∀ key_ref e, s.cache key_ref = some e → ∃ secret ∈ s.secrets key_ref,
    identityOf crates secret = .ok e.2
  signing : ∀ t ∈ s.signings, t.Sound crates q buffer_positions mode s.secrets

theorem Honest.mono {secrets secrets' : String → List Value} {x : Exchange VaultCall VaultReply}
    (hsub : ∀ path, secrets path ⊆ secrets' path) (h : Honest crates secrets x) :
    Honest crates secrets' x := by
  obtain ⟨v, r⟩ := x
  cases v with
  | kvRead path =>
      cases r with
      | error e => trivial
      | ok secret => exact hsub path h
  | cached key_ref =>
      cases r with
      | none => trivial
      | some e =>
          obtain ⟨secret, hmem, hid⟩ := h
          exact ⟨secret, hsub key_ref hmem, hid⟩
  | _ => trivial

theorem Signing.Sound.mono {secrets secrets' : String → List Value} {t : Signing}
    (hsub : ∀ path, secrets path ⊆ secrets' path)
    (h : t.Sound crates q buffer_positions mode secrets) :
    t.Sound crates q buffer_positions mode secrets' :=
  ⟨h.path, h.current, h.consulted, fun x hx => (h.honest x hx).mono hsub, h.agrees⟩

/-- What is answered comes from a version of the secret. -/
theorem SigningProcess.Sound.reply_honest (hs : s.Sound crates q buffer_positions mode)
    (w : VaultWorld) (v : VaultCall) : Honest crates s.secrets ⟨v, s.reply w v⟩ := by
  cases v with
  | kvRead path =>
      simp only [SigningProcess.reply]
      split
      · rename_i secret _ hlast
        exact List.mem_of_getLast? hlast
      · trivial
      · trivial
  | cached key_ref =>
      simp only [SigningProcess.reply]
      cases hcache : s.cache key_ref with
      | none => trivial
      | some e => exact hs.cache key_ref e hcache
  | _ => trivial

/-- What the condition is for. -/
theorem reply_agrees {w : VaultWorld} {certificate : String} {v : VaultCall}
    (h : s.Finds crates mode certificate v) : Agrees crates mode certificate ⟨v, s.reply w v⟩ := by
  cases v with
  | kvRead path =>
      simp only [SigningProcess.reply]
      split
      · rename_i secret _ hlast
        exact h secret hlast
      · trivial
      · trivial
  | cached key_ref =>
      simp only [SigningProcess.reply]
      cases hcache : s.cache key_ref with
      | none => trivial
      | some e => exact h e hcache
  | _ => trivial

@[simp] theorem enter_program (p : Prog ProviderCall ProviderReply (Except CryptoError String)) :
    (Stage.enter crates mode p).program = p := by
  cases p <;> rfl

@[simp] theorem enter_asked (p : Prog ProviderCall ProviderReply (Except CryptoError String)) :
    (Stage.enter crates mode p).asked = [] := by
  cases p <;> rfl

@[simp] theorem enter_askedForKey
    (p : Prog ProviderCall ProviderReply (Except CryptoError String)) :
    (Stage.enter crates mode p).askedForKey = [] := by
  cases p with
  | done r => rfl
  | call c k => exact ite_self _

theorem enter_current {p : Prog ProviderCall ProviderReply (Except CryptoError String)}
    {c : ProviderCall}
    {k : ProviderReply c → Prog ProviderCall ProviderReply (Except CryptoError String)}
    {asked : Prog.Trace VaultCall VaultReply} {rest : Prog VaultCall VaultReply (ProviderReply c)}
    (h : Stage.enter crates mode p = .calling c k asked rest) :
    Path (mode.provider crates c) asked rest := by
  cases p with
  | done r => cases h
  | call c k =>
      cases h
      exact .start

theorem Signing.Sound.started {secrets : String → List Value} (operation : SigningOperation) :
    (Signing.start crates q buffer_positions mode operation).Sound crates q buffer_positions mode
      secrets where
  path := by
    simp only [Signing.start, enter_program]
    exact .start
  current := fun c k asked rest h => enter_current h
  consulted := by simp [Signing.start]
  honest := by simp [Signing.start]
  agrees := by simp [Signing.start, Signing.certificate?]

section Work

variable {secrets : String → List Value} {t : Signing} {c : ProviderCall}
  {k : ProviderReply c → Prog ProviderCall ProviderReply (Except CryptoError String)}
  {asked : Prog.Trace VaultCall VaultReply}

/-- The provider has answered. -/
theorem Signing.Sound.answered {r : ProviderReply c}
    (h : t.Sound crates q buffer_positions mode secrets)
    (hstage : t.stage = .calling c k asked (.done r)) :
    Signing.Sound crates q buffer_positions mode secrets
      ⟨t.operation, t.past ++ [⟨⟨c, r⟩, asked⟩], Stage.enter crates mode (k r)⟩ where
  path := by
    have hpath := h.path
    rw [hstage] at hpath
    simpa using hpath.reply r
  current := fun c k asked rest h => enter_current h
  consulted := by
    intro e he
    rcases List.mem_append.mp he with he | he
    · exact h.consulted e he
    · rw [List.mem_singleton.mp he]
      exact h.current c k asked _ hstage
  honest := by
    intro x hx
    rw [enter_asked, List.append_nil, List.flatMap_append] at hx
    refine h.honest x ?_
    rw [hstage]
    simpa [Stage.asked] using hx
  agrees := by
    intro certificate hcert x hx
    rw [Signing.askedForKey, enter_askedForKey, List.append_nil] at hx
    cases c with
    | getCertificate key_ref =>
        -- it is the first call
        have hcall := h.path
        rw [hstage] at hcall
        have hnil := (call_of_path (signing_calls t.operation) hcall).2
        rw [List.map_eq_nil_iff] at hnil
        simp [hnil, ProviderCall.signs] at hx
    | signRsaSha256 key_ref data =>
        refine h.agrees certificate ?_ x ?_
        · simpa [Signing.certificate?, DianService.certificate?] using hcert
        · simpa [Signing.askedForKey, hstage, ProviderCall.signs, Stage.askedForKey] using hx

/-- The provider has asked. -/
theorem Signing.Sound.asking {v : VaultCall} {r : VaultReply v}
    {rest : VaultReply v → Prog VaultCall VaultReply (ProviderReply c)}
    (h : t.Sound crates q buffer_positions mode secrets)
    (hstage : t.stage = .calling c k asked (.call v rest)) (hhonest : Honest crates secrets ⟨v, r⟩)
    (hagrees : c.signs = true → ∀ certificate ∈ t.certificate?,
      Agrees crates mode certificate ⟨v, r⟩) :
    Signing.Sound crates q buffer_positions mode secrets
      ⟨t.operation, t.past, .calling c k (asked ++ [⟨v, r⟩]) (rest r)⟩ where
  path := by
    have hpath := h.path
    rw [hstage] at hpath
    exact hpath
  current := by
    rintro _ _ _ _ ⟨⟩
    exact (h.current c k asked _ hstage).reply r
  consulted := h.consulted
  honest := by
    intro x hx
    have hold := h.honest x
    simp only [hstage, Stage.asked] at hold hx
    rw [← List.append_assoc] at hx
    rcases List.mem_append.mp hx with hx | hx
    · exact hold hx
    · exact List.mem_singleton.mp hx ▸ hhonest
  agrees := by
    intro certificate hcert x hx
    have hold := h.agrees certificate hcert x
    simp only [Signing.askedForKey, hstage, Stage.askedForKey] at hold hx
    by_cases hsigns : c.signs = true
    · rw [if_pos hsigns] at hold hx
      rw [← List.append_assoc] at hx
      rcases List.mem_append.mp hx with hx | hx
      · exact hold hx
      · exact List.mem_singleton.mp hx ▸ hagrees hsigns certificate hcert
    · rw [if_neg hsigns] at hold hx
      exact hold hx

end Work

/-- What is stored in the cache is what Vault said. -/
theorem SigningProcess.Sound.store (hs : s.Sound crates q buffer_positions mode) {t : Signing}
    (ht : t ∈ s.signings) {c : ProviderCall}
    {k : ProviderReply c → Prog ProviderCall ProviderReply (Except CryptoError String)}
    {asked : Prog.Trace VaultCall VaultReply} {v : VaultCall}
    {rest : VaultReply v → Prog VaultCall VaultReply (ProviderReply c)}
    (hstage : t.stage = .calling c k asked (.call v rest)) :
    ∀ key_ref e, (s.store v).cache key_ref = some e →
      ∃ secret ∈ s.secrets key_ref, identityOf crates secret = .ok e.2 := by
  intro key_ref e he
  have hcall := call_of_path (wp_provider mode c) ((hs.signing t ht).current c k asked _ hstage)
  cases v with
  | cache key_ref' identity =>
      by_cases hkey : key_ref = key_ref'
      · subst hkey
        obtain ⟨secret, hmem, hid⟩ := hcall
        have hasked : (⟨.kvRead key_ref, .ok secret⟩ : Exchange VaultCall VaultReply) ∈
            t.past.flatMap Consulted.asked ++ t.stage.asked := by
          rw [hstage]
          exact List.mem_append_right _ hmem
        simp only [SigningProcess.store, Function.update_self, Option.some.injEq] at he
        exact ⟨secret, (hs.signing t ht).honest _ hasked, he ▸ hid⟩
      · simp only [SigningProcess.store, Function.update_of_ne hkey] at he
        exact hs.cache key_ref e he
  | _ => exact hs.cache key_ref e he

@[simp] theorem store_secrets (v : VaultCall) : (s.store v).secrets = s.secrets := by
  cases v <;> rfl

theorem SigningProcess.Sound.step (hs : s.Sound crates q buffer_positions mode)
    (hsteady : Steady crates mode s a) (h : SigningStep crates q buffer_positions mode s a s') :
    s'.Sound crates q buffer_positions mode := by
  cases h with
  | tick => exact ⟨hs.cache, hs.signing⟩
  | @rotate path secret =>
      have hsub : ∀ p, s.secrets p ⊆
          Function.update s.secrets path (s.secrets path ++ [secret]) p := by
        intro p
        by_cases hp : p = path
        · subst hp
          rw [Function.update_self]
          exact List.subset_append_left _ _
        · rw [Function.update_of_ne hp]
          exact List.Subset.refl _
      refine ⟨fun key_ref e he => ?_, fun t ht => (hs.signing t ht).mono hsub⟩
      obtain ⟨v, hv, hid⟩ := hs.cache key_ref e he
      exact ⟨v, hsub key_ref hv, hid⟩
  | @start operation =>
      refine ⟨hs.cache, fun t ht => ?_⟩
      rcases List.mem_append.mp ht with ht | ht
      · exact hs.signing t ht
      · rw [List.mem_singleton.mp ht]
        exact .started operation
  | @answered i w t c k asked r ht hstage =>
      refine ⟨hs.cache, fun u hu => ?_⟩
      rcases List.mem_or_eq_of_mem_set hu with hu | rfl
      · exact hs.signing u hu
      · exact (hs.signing t (List.mem_of_getElem? ht)).answered hstage
  | @asked i w t c k asked v rest ht hstage =>
      have hmem := List.mem_of_getElem? ht
      refine ⟨fun key_ref e he => ?_, fun u hu => ?_⟩
      · rw [store_secrets]
        exact hs.store hmem hstage key_ref e he
      · rw [store_secrets]
        rcases List.mem_or_eq_of_mem_set hu with hu | rfl
        · exact hs.signing u hu
        · refine (hs.signing t hmem).asking hstage (hs.reply_honest w v) fun hsigns cert hcert => ?_
          refine reply_agrees (hsteady t ht cert hcert v ?_)
          cases c with
          | getCertificate key_ref => cases hsigns
          | signRsaSha256 key_ref data => simp [Signing.asksForKey?, hstage]

end Step

/-! ## Runs -/

section Runs

variable {crates : CryptoCrates} {q : QuickXml} {buffer_positions : String → List Nat}
  {mode : VaultMode} {s : SigningProcess}

theorem identityOf_eq_ok {secret : Value} {identity : TransitIdentity}
    (h : identityOf crates secret = .ok identity) :
    certificateOf crates secret = .ok identity.certificate ∧
      secretField secret "transit_key" = .ok identity.transit_key := by
  unfold identityOf at h
  unfold certificateOf
  cases hc : secretField secret "certificate" >>= certificateFromPem crates with
  | error e =>
      rw [hc] at h
      cases h
  | ok certificate =>
      rw [hc] at h
      cases hk : secretField secret "transit_key" with
      | error e =>
          rw [hk] at h
          cases h
      | ok key_name =>
          rw [hk] at h
          cases h
          exact ⟨rfl, rfl⟩

/-- The secret behind what was asked for the key. -/
theorem secret_of_asked {secrets : String → List Value} {key_ref certificate : String}
    {data value : List UInt8} {asked : Prog.Trace VaultCall VaultReply}
    (hhonest : ∀ x ∈ asked, Honest crates secrets x)
    (hagrees : ∀ x ∈ asked, Agrees crates mode certificate x)
    (h : SignedAfter crates key_ref data asked value mode) :
    ∃ secret ∈ secrets key_ref, certificateOf crates secret = .ok certificate ∧
      SignedWith crates secret data value asked mode := by
  cases mode with
  | kv =>
      obtain ⟨secret, hmem, hsigned⟩ := h
      refine ⟨secret, hhonest _ hmem, hagrees _ hmem ?_, hsigned⟩
      obtain ⟨key, hkey, -⟩ := hsigned
      unfold Usable
      rw [hkey]
      rfl
  | transit =>
      obtain ⟨identity, reply, encoded, hid, hsigned⟩ := h
      obtain ⟨secret, hmem, hof, hcert⟩ : ∃ secret ∈ secrets key_ref,
          identityOf crates secret = .ok identity ∧ identity.certificate = certificate := by
        rcases hid with ⟨elapsed, hlt, hmem⟩ | ⟨secret, hmem, hof⟩
        · obtain ⟨secret, hsecret, hof⟩ := hhonest _ hmem
          exact ⟨secret, hsecret, hof, hagrees _ hmem hlt⟩
        · have husable : Usable crates .transit secret := by
            unfold Usable
            rw [hof]
            rfl
          have hcert := hagrees _ hmem husable
          rw [(identityOf_eq_ok hof).1] at hcert
          exact ⟨secret, hhonest _ hmem, hof, Except.ok.inj hcert⟩
      obtain ⟨hcertificate, hkey⟩ := identityOf_eq_ok hof
      exact ⟨secret, hmem, hcert ▸ hcertificate, identity.transit_key, reply, encoded, hkey,
        hsigned⟩

theorem Signing.Sound.oneVersion {t : Signing}
    (h : t.Sound crates q buffer_positions mode s.secrets) :
    OneVersion crates q buffer_positions mode s t := by
  intro signed hstage
  have hruns := h.path
  rw [hstage] at hruns
  obtain ⟨certificate, data, value, hpast⟩ :=
    end_of_path (signing_calls t.operation) hruns signed rfl
  obtain ⟨⟨_, asked₁⟩, _, hpast', rfl, hrest⟩ := List.map_eq_cons_iff.mp hpast
  obtain ⟨⟨_, asked₂⟩, _, rfl, rfl, hnil⟩ := List.map_eq_cons_iff.mp hrest
  rw [List.map_eq_nil_iff] at hnil
  subst hnil
  have hasked : t.askedForKey = asked₂ := by
    simp [Signing.askedForKey, hpast', hstage, ProviderCall.signs, Stage.askedForKey]
  have hcert : t.certificate? = some certificate := by
    simp [Signing.certificate?, hpast', DianService.certificate?]
  refine ⟨certificate, data, value, asked₁, asked₂, hpast', hruns, ?_⟩
  refine secret_of_asked (fun x hx => h.honest x ?_) (fun x hx => ?_)
    (end_of_path (wp_sign mode) (h.consulted ⟨⟨.signRsaSha256 _ _, .ok value⟩, asked₂⟩ ?_) value
      rfl)
  · simp [hpast', hx]
  · exact h.agrees certificate hcert x (hasked ▸ hx)
  · simp [hpast']

end Runs

/-- While the second lookup of every operation finds the secret whose certificate it holds, each
    signature has the certificate and the key of one version. -/
theorem signatures_one_version (crates : CryptoCrates) (q : QuickXml)
    (buffer_positions : String → List Nat) (mode : VaultMode) {s : SigningProcess}
    (h : (signingProcess crates q buffer_positions mode).ReachableBy (Steady crates mode) s) :
    ∀ t ∈ s.signings, OneVersion crates q buffer_positions mode s t := by
  suffices hs : s.Sound crates q buffer_positions mode from fun t ht => (hs.signing t ht).oneVersion
  refine h.invariant ?_ fun s a s' _ hs hsteady hstep => hs.step hsteady (signingStep_inv hstep)
  rintro s ⟨now, secrets, rfl⟩
  refine ⟨fun key_ref e he => ?_, fun t ht => ?_⟩
  · cases he
  · cases ht

/-! ### Two runs -/

section Samples

variable {crates : CryptoCrates} {q : QuickXml} {buffer_positions : String → List Nat}

theorem xadesSign_run {xml certificate : String} (key_ref : String) {uuid : Uuid} {now : Time}
    {info : CertificateInfo} {draft : XadesDraft}
    (hplaceholder : XmlUtil.countMatches SIGNATURE_PLACEHOLDER.toList xml.toList = 1)
    (hinfo : CertificateInfo.fromBase64Der crates certificate = .ok info)
    (hdraft : xadesDraft crates q xml ("xmldsig-" ++ uuidText uuid) now info = .ok draft) :
    ∃ k k', ((SigningOperation.document xml key_ref uuid now).program crates q
        buffer_positions).run = .call (.getCertificate key_ref) k ∧
      k (.ok certificate) = .call (.signRsaSha256 key_ref draft.octets) k' ∧
      ∀ value, ∃ signed, k' (.ok value) = .done (.ok signed) := by
  show ∃ k k', (xadesSign crates q xml key_ref uuid now).run = .call (.getCertificate key_ref) k ∧
    k (.ok certificate) = .call (.signRsaSha256 key_ref draft.octets) k' ∧ _
  unfold xadesSign
  rw [if_neg (by rw [hplaceholder]; exact not_not.mpr rfl)]
  refine ⟨_, ExceptT.bindCont fun value => (pure (XmlUtil.replaceAll xml SIGNATURE_PLACEHOLDER
    (xadesSignature ("xmldsig-" ++ uuidText uuid) draft.signed_info (crates.base64_encode value)
      draft.key_info draft.signed_properties)) : SigningService String), rfl, ?_,
    fun value => ⟨_, rfl⟩⟩
  show (pureResult (CertificateInfo.fromBase64Der crates certificate) >>= fun info =>
    pureResult (xadesDraft crates q xml ("xmldsig-" ++ uuidText uuid) now info) >>= fun draft =>
    signRsaSha256 key_ref draft.octets >>= fun value =>
      (pure (XmlUtil.replaceAll xml SIGNATURE_PLACEHOLDER (xadesSignature
        ("xmldsig-" ++ uuidText uuid) draft.signed_info (crates.base64_encode value)
        draft.key_info draft.signed_properties)) : SigningService String)).run = _
  rw [hinfo]
  show (pureResult (xadesDraft crates q xml ("xmldsig-" ++ uuidText uuid) now info) >>= _ :
    SigningService String).run = _
  rw [hdraft]
  rfl

variable (crates) in
theorem vaultKv_calls {key_ref : String} (hpath : validPath key_ref = true) (data : List UInt8) :
    ∃ k k', vaultKvKeyProvider crates (.getCertificate key_ref) = .call (.kvRead key_ref) k ∧
      vaultKvKeyProvider crates (.signRsaSha256 key_ref data) = .call (.kvRead key_ref) k' ∧
      (∀ secret, k (.ok secret) = .done (certificateOf crates secret)) ∧
      ∀ secret key, privateKeyOf crates secret = .ok key →
        k' (.ok secret) = .done (signInProcess crates key data) := by
  simp only [vaultKvKeyProvider, readSecret, if_pos hpath]
  refine ⟨_, _, rfl, rfl, fun secret => rfl, fun secret key hkey => ?_⟩
  show (ofResult (privateKeyOf crates secret) >>= fun key =>
    ofResult (signInProcess crates key data) : VaultService (List UInt8)).run = _
  rw [hkey]
  rfl

/-- The secret may be rotated after the certificate is taken. -/
def kvRun (operation : SigningOperation) (rotated : Option Value) : List SigningAction :=
  let w : VaultWorld := ⟨none, .ok ""⟩
  [.start operation, .work 0 w, .work 0 w] ++
    rotated.toList.map (SigningAction.rotate operation.key_ref) ++ [.work 0 w, .work 0 w]

section KvRun

variable (now : Time) (operation : SigningOperation) (secret : Value) (rotated : Option Value)
  {certificate signed : String} {data value : List UInt8}
  {k : Except CryptoError String → Prog ProviderCall ProviderReply (Except CryptoError String)}
  {k' : Except CryptoError (List UInt8) →
    Prog ProviderCall ProviderReply (Except CryptoError String)}
  {key key' : RsaKeyPair} {later : Value} {other : String}
  (hpath : validPath operation.key_ref = true)
  (hprogram : (operation.program crates q buffer_positions).run =
    .call (.getCertificate operation.key_ref) k)
  (hk : k (.ok certificate) = .call (.signRsaSha256 operation.key_ref data) k')
  (hk' : k' (.ok value) = .done (.ok signed))
  (hcert : certificateOf crates secret = .ok certificate)

include hpath hprogram hk hk' hcert

/-- What the run leaves: the certificate of the first version, the key of the last. -/
theorem kvRun_ends (hkey : privateKeyOf crates (rotated.getD secret) = .ok key)
    (hsign : signInProcess crates key data = .ok value) :
    (signingProcess crates q buffer_positions .kv).run
        ⟨now, fun _ => [secret], fun _ => none, []⟩ (kvRun operation rotated) =
      some ⟨now, Function.update (fun _ => [secret]) operation.key_ref (secret :: rotated.toList),
        fun _ => none,
        [⟨operation,
          [⟨⟨.getCertificate operation.key_ref, .ok certificate⟩,
              [⟨.kvRead operation.key_ref, .ok secret⟩]⟩,
            ⟨⟨.signRsaSha256 operation.key_ref data, .ok value⟩,
              [⟨.kvRead operation.key_ref, .ok (rotated.getD secret)⟩]⟩],
          .ended (.ok signed)⟩]⟩ := by
  obtain ⟨g, g', hg, hg', hgok, hgok'⟩ := vaultKv_calls crates hpath data
  cases rotated with
  | none =>
      have hkey' : privateKeyOf crates secret = .ok key := hkey
      simp [kvRun, Machine.run, signingProcess, signingStep, Signing.start, hprogram, Stage.enter,
        VaultMode.provider, hg, SigningProcess.reply, SigningProcess.store, hgok, hcert, hk, hg',
        hgok' _ _ hkey', hsign, hk']
  | some later =>
      have hkey' : privateKeyOf crates later = .ok key := hkey
      simp [kvRun, Machine.run, signingProcess, signingStep, Signing.start, hprogram, Stage.enter,
        VaultMode.provider, hg, SigningProcess.reply, SigningProcess.store, hgok, hcert, hk, hg',
        hgok' _ _ hkey', hsign, hk']

theorem kvRun_steady (hkey : privateKeyOf crates secret = .ok key)
    (hsign : signInProcess crates key data = .ok value) :
    (signingProcess crates q buffer_positions .kv).Meets (Steady crates .kv)
      ⟨now, fun _ => [secret], fun _ => none, []⟩ (kvRun operation none) := by
  obtain ⟨g, g', hg, hg', hgok, hgok'⟩ := vaultKv_calls crates hpath data
  simp [kvRun, Machine.Meets, signingProcess, signingStep, Signing.start, hprogram, Stage.enter,
    VaultMode.provider, hg, SigningProcess.reply, SigningProcess.store, hgok, hcert, hk, hg',
    hgok' _ _ hkey, hsign, hk', Steady, Signing.certificate?, DianService.certificate?,
    Signing.asksForKey?, SigningProcess.Finds]

/-- A rotation between the two lookups, when the versions differ in certificate and key. -/
theorem kvRun_mixed (hkey : privateKeyOf crates secret = .ok key)
    (hcert' : certificateOf crates later = .ok other)
    (hkey' : privateKeyOf crates later = .ok key')
    (hsign : signInProcess crates key' data = .ok value) (hother : other ≠ certificate)
    (hvalue : signInProcess crates key data ≠ .ok value) :
    ¬ ∀ s, (signingProcess crates q buffer_positions .kv).Reachable s →
      ∀ t ∈ s.signings, OneVersion crates q buffer_positions .kv s t := by
  intro h
  have hrun := kvRun_ends 0 operation secret (some later) hpath hprogram hk hk' hcert hkey' hsign
  obtain ⟨certificate', data', value', asked₁, asked₂, hpast, -, found, hfound, hof, key'', hof',
    hsigned⟩ := h _ (.run (.start ⟨0, _, rfl⟩) hrun) _ (List.mem_singleton_self _) signed rfl
  cases hpast
  have hsecret : found = secret ∨ found = later := by
    simpa [Function.update_self] using hfound
  cases hsecret with
  | inl hfirst =>
      rw [hfirst, hkey] at hof'
      cases hof'
      exact hvalue hsigned
  | inr hlast =>
      rw [hlast, hcert'] at hof
      cases hof
      exact hother rfl

end KvRun

theorem xadesDraft_ok {crates : CryptoCrates} {q : QuickXml} {xml id : String} {now : Time}
    {info : CertificateInfo} {scope : Bindings}
    {digest document key_info properties signed_info : String}
    (hdigest : ∀ text, sha256B64 crates text = digest)
    (hscope : XmlUtil.namespacesInScopeAt q xml SIGNATURE_PLACEHOLDER = .ok scope)
    (hdocument : C14n.canonicalizeXml q (XmlUtil.replaceAll xml SIGNATURE_PLACEHOLDER "") =
      .ok document)
    (hkey : canonicalIn q (("ds".toList, NS_DS.toList) :: scope) (xadesKeyInfo id info) =
      .ok key_info)
    (hproperties : canonicalIn q
      (("xades".toList, NS_XADES.toList) :: ("ds".toList, NS_DS.toList) :: scope)
      (xadesSignedProperties id (signingTime now) info) = .ok properties)
    (hinfo : canonicalIn q (("ds".toList, NS_DS.toList) :: scope)
      (xadesSignedInfo id digest digest digest) = .ok signed_info) :
    ∃ draft, xadesDraft crates q xml id now info = .ok draft := by
  unfold xadesDraft
  rw [hscope]
  simp only [bind, Except.bind, hdocument, hkey, hproperties, hdigest, hinfo]
  exact ⟨_, rfl⟩

end Samples

theorem flatMap_ofList (cs : List Char) (pieces : List String) :
    (String.ofList cs :: pieces).flatMap String.toList = cs ++ pieces.flatMap String.toList := by
  rw [List.flatMap_cons, String.toList_ofList]

/-- Crates that know the few texts of the samples; a key signs with its own bytes. -/
def sampleCrates : CryptoCrates where
  base64_encode bytes := if bytes = [1] then "AQ==" else "Ag=="
  base64_decode text := if text = "AQ==" then .ok [1] else if text = "Ag==" then .ok [2]
    else .error "Invalid symbol"
  sha256 _ := [1]
  x509_from_der _ := .ok ⟨"CN=Emisor", [1]⟩
  rsa_key _ := .ok ()
  rsa_sign key _ := .ok (match key with | .from_der der => der | .from_pkcs8 der => der)

def sampleXml : QuickXml := ⟨fun s => readXml s.toList, fun raw => .ok raw⟩

def sampleUnsigned : String := "<a><!-- PLACEHOLDER_FOR_SIGNATURE --></a>"

def SAMPLE_ID : String := "xmldsig-00000000-0000-0000-0000-000000000000"

def sampleInfo : CertificateInfo := ⟨"AQ==", "AQ==", "CN=Emisor", "1"⟩

/-- A version of a secret. -/
def sampleSecret (pem : String) : Value :=
  .object [("certificate", .string pem), ("private_key", .string pem)]

/-- What the samples are evaluated to. -/
theorem samples_evaluated :
    decimalFromBeBytes [1] = "1" ∧
    XmlUtil.countMatches SIGNATURE_PLACEHOLDER.toList sampleUnsigned.toList = 1 ∧
    XmlUtil.namespacesInScopeAt sampleXml sampleUnsigned SIGNATURE_PLACEHOLDER = .ok [] ∧
    C14n.canonicalizeXml sampleXml (XmlUtil.replaceAll sampleUnsigned SIGNATURE_PLACEHOLDER "") =
      .ok "<a></a>" ∧
    "xmldsig-" ++ uuidText 0 = SAMPLE_ID ∧
    signingTime 0 = "1969-12-31T19:00:00.000-05:00" ∧
    validPath "tenants/1" = true := by
  decide +kernel

theorem sampleInfo_eq : CertificateInfo.fromBase64Der sampleCrates "AQ==" = .ok sampleInfo := by
  have h : decimalFromBeBytes [1] = "1" := samples_evaluated.1
  simp [CertificateInfo.fromBase64Der, sampleCrates, h, sampleInfo]

theorem sampleSecrets :
    (certificateOf sampleCrates (sampleSecret "AQ==") = .ok "AQ==" ∧
      privateKeyOf sampleCrates (sampleSecret "AQ==") = .ok (.from_pkcs8 [1])) ∧
    (certificateOf sampleCrates (sampleSecret "Ag==") = .ok "Ag==" ∧
      privateKeyOf sampleCrates (sampleSecret "Ag==") = .ok (.from_pkcs8 [2])) := by
  decide +kernel

theorem exists_ok {α ε : Type} {r : Except ε α} (h : r.isOk = true) : ∃ a, r = .ok a := by
  cases r with
  | ok a => exact ⟨a, rfl⟩
  | error e => cases h

theorem canonicalIn_isOk (scope : Bindings) (pieces : List String) :
    (canonicalIn sampleXml scope (concat pieces)).isOk = (C14n.canonicalizeEvents sampleXml
      (readXml (XmlUtil.withNamespaces (pieces.flatMap String.toList) scope)) none).isOk := by
  unfold canonicalIn C14n.canonicalizeXml C14n.canonicalize
  rw [toList_concat]
  show (C14n.canonicalizeEvents sampleXml (readXml (String.ofList _).toList) none).isOk = _
  rw [String.toList_ofList]

-- The texts are brought to characters before they are evaluated: a literal unifies with
-- `String.ofList`, and what is left has no bytes to decode.
set_option maxRecDepth 2000

theorem sampleParts :
    (canonicalIn sampleXml [("ds".toList, NS_DS.toList)]
      (xadesKeyInfo SAMPLE_ID sampleInfo)).isOk ∧
    (canonicalIn sampleXml [("xades".toList, NS_XADES.toList), ("ds".toList, NS_DS.toList)]
      (xadesSignedProperties SAMPLE_ID (signingTime 0) sampleInfo)).isOk ∧
    (canonicalIn sampleXml [("ds".toList, NS_DS.toList)]
      (xadesSignedInfo SAMPLE_ID "AQ==" "AQ==" "AQ==")).isOk := by
  obtain ⟨-, -, -, -, -, htime, -⟩ := samples_evaluated
  rw [xadesKeyInfo, xadesSignedProperties, xadesSignedInfo, canonicalIn_isOk, canonicalIn_isOk,
    canonicalIn_isOk, htime]
  unfold SAMPLE_ID ALG_C14N ALG_RSA_SHA256 ALG_ENVELOPED ALG_SHA256 SIGNED_PROPERTIES_TYPE
    POLICY_DESCRIPTION POLICY_DIGEST_SHA256 POLICY_URL sampleInfo NS_DS NS_XADES
  repeat rw [flatMap_ofList]
  decide +kernel

theorem exists_draft : ∃ draft, xadesDraft sampleCrates sampleXml sampleUnsigned
    ("xmldsig-" ++ uuidText 0) 0 sampleInfo = .ok draft := by
  obtain ⟨-, -, hscope, hdocument, hid, -, -⟩ := samples_evaluated
  obtain ⟨key_info, hkey⟩ := exists_ok sampleParts.1
  obtain ⟨properties, hproperties⟩ := exists_ok sampleParts.2.1
  obtain ⟨signed_info, hinfo⟩ := exists_ok sampleParts.2.2
  rw [hid]
  exact xadesDraft_ok (fun _ => rfl) hscope hdocument hkey hproperties hinfo

theorem samplePath : validPath "tenants/1" = true := by
  obtain ⟨-, -, -, -, -, -, hpath⟩ := samples_evaluated
  exact hpath

def sampleOperation : SigningOperation := .document sampleUnsigned "tenants/1" 0 0

theorem sample_run : ∃ octets k k',
    (sampleOperation.program sampleCrates sampleXml fun _ => []).run =
      .call (.getCertificate "tenants/1") k ∧
    k (.ok "AQ==") = .call (.signRsaSha256 "tenants/1" octets) k' ∧
    ∀ value, ∃ signed, k' (.ok value) = .done (.ok signed) := by
  obtain ⟨draft, hdraft⟩ := exists_draft
  exact ⟨draft.octets, xadesSign_run "tenants/1" samples_evaluated.2.1 sampleInfo_eq hdraft⟩

/-- A document whose certificate is that of the secret before a rotation, and whose signature is
    by the key of the secret after it. -/
theorem rotation_between_lookups :
    ¬ ∀ s, (signingProcess sampleCrates sampleXml (fun _ => []) .kv).Reachable s →
      ∀ t ∈ s.signings, OneVersion sampleCrates sampleXml (fun _ => []) .kv s t := by
  obtain ⟨octets, k, k', hprogram, hk, hk'⟩ := sample_run
  obtain ⟨signed, hsigned⟩ := hk' [2]
  have hkey : signInProcess sampleCrates (.from_pkcs8 [2]) octets = .ok [2] := rfl
  have hother : signInProcess sampleCrates (.from_pkcs8 [1]) octets ≠ .ok [2] := by
    show Except.ok [1] ≠ Except.ok [2]
    decide
  exact kvRun_mixed sampleOperation _ samplePath hprogram hk hsigned sampleSecrets.1.1
    sampleSecrets.1.2 sampleSecrets.2.1 sampleSecrets.2.2 hkey (by decide) hother

/-- Without a rotation the document has the certificate and the key of one version. -/
theorem signature_without_rotation :
    ∃ s t signed, t ∈ s.signings ∧ t.stage = .ended (.ok signed) ∧
      OneVersion sampleCrates sampleXml (fun _ => []) .kv s t := by
  obtain ⟨octets, k, k', hprogram, hk, hk'⟩ := sample_run
  obtain ⟨signed, hsigned⟩ := hk' [1]
  have hkey : signInProcess sampleCrates (.from_pkcs8 [1]) octets = .ok [1] := rfl
  exact ⟨_, _, signed, List.mem_singleton_self _, rfl,
    signatures_one_version sampleCrates sampleXml (fun _ => []) .kv
      (.run (.start ⟨0, _, rfl⟩)
        (kvRun_steady 0 sampleOperation _ samplePath hprogram hk hsigned sampleSecrets.1.1
          sampleSecrets.1.2 hkey)
        (kvRun_ends 0 sampleOperation _ none samplePath hprogram hk hsigned sampleSecrets.1.1
          sampleSecrets.1.2 hkey)) _ (List.mem_singleton_self _)⟩

end DianService
