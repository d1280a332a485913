import NdnFwd.Core.Lines
import NdnFwd.Models.Keys.Keygen
import NdnFwd.Models.Keys.SafeBag

/-!
# Moving an identity to another base

`ndn-sec export` writes the first key of an identity under a passphrase, and `ndn-sec import` reads
it into another base. Passphrases come with the command line or from a line of standard input,
which `ndn-sec import` may have read to its end already.
-/

namespace NdnFwd.Sec

open SafeBag (WireFormat)

/-- Standard input. -/
structure Stdin where
  /-- What can be read up to each end of the input. -/
  segments : List Bytes
  isTerminal : Bool
  /-- Only a terminal can be read on after its end. -/
  ends : isTerminal = false → segments.length ≤ 1

/-- Why a key was not moved. -/
inductive PortError
  | noPib
  | noKey (name : Name)
  /-- The line is not UTF-8. -/
  | notText
  /-- `passphrases did not match`. -/
  | mismatch
  /-- `refusing to export with an empty passphrase`. -/
  | emptyPassphrase
  /-- The base reported an error. -/
  | export
  /-- The input cannot be read. -/
  | unreadable
  /-- `input is neither a raw SafeBag TLV nor base64`. -/
  | neither
  | badSafeBag
  /-- `import failed`, or the anchor could not be added. -/
  | sec (e : SecError)
  deriving DecidableEq, Repr

namespace Stdin

/-- Nothing follows the end of a pipe. -/
theorem length_tail (s : Stdin) (h : s.isTerminal = false) : s.segments.tail.length = 0 := by
  have hends := s.ends h
  rw [List.length_tail]
  omega

/-- `read_to_end`. -/
def readToEnd (s : Stdin) : Bytes × Stdin :=
  (s.segments.headD [], ⟨s.segments.tail, s.isTerminal, fun h => by
    rw [s.length_tail h]
    exact Nat.zero_le 1⟩)

/-- `read_line`. The end of the input is read as well if no line feed comes first. -/
def readLine (s : Stdin) : Bytes × Stdin :=
  let (line, rest) := Lines.readLine (s.segments.headD [])
  (line, ⟨if 0x0A ∈ line then rest :: s.segments.tail else s.segments.tail, s.isTerminal,
    fun h => by
      have hlength := s.length_tail h
      split_ifs
      · rw [List.length_cons, hlength]
      · rw [hlength]
        exact Nat.zero_le 1⟩)

private theorem fst_readLine (s : Stdin) :
    s.readLine.1 = (Lines.readLine (s.segments.headD [])).1 := rfl

/-- `read_line_prompt`. -/
def readLinePrompt (s : Stdin) : Except PortError Bytes × Stdin :=
  let (line, s) := s.readLine
  (if Utf8.isText line then .ok (Lines.trimEnd line) else .error .notText, s)

end Stdin

/-- `resolve_password`. -/
def resolvePassword (flag : Option Bytes) (confirm : Bool) (stdin : Stdin) :
    Except PortError Bytes :=
  match flag with
  | some password => .ok password
  | none =>
    match stdin.readLinePrompt with
    | (.error e, _) => .error e
    | (.ok password, stdin) =>
      if confirm && stdin.isTerminal then
        match stdin.readLinePrompt.1 with
        | .error e => .error e
        | .ok again => if password ≠ again then .error .mismatch else .ok password
      else .ok password

/-- The name of the file that an identity is exported to. -/
def defaultName (identity : Name) : Bytes :=
  ((identity.getLast?.map fun c => Utf8.lossy c.value).filter (· ≠ [])).getD (asBytes "identity") ++
    asBytes ".safebag"

section Commands

variable {π : Type*} (engine : Base64.Engine Base64.standard) (lib : PacketLib) (f : FilePib π)
  (exportSafebag : Name → Bytes → π → Option Bytes)

/-- `cmd_export`: where the payload is written, and the payload. -/
def cmdExport (identity : Name) (out flag : Option Bytes) (format : WireFormat) (stdin : Stdin) :
    Option π → Except PortError (Bytes × Bytes)
  | none => .error .noPib
  | some p =>
    match findCertName f p identity with
    | none => .error (.noKey identity)
    | some certName =>
      match resolvePassword flag true stdin with
      | .error e => .error e
      | .ok password =>
        if password = [] then .error .emptyPassphrase
        else
          match exportSafebag certName password p with
          | none => .error .export
          | some wire => .ok (out.getD (defaultName identity), SafeBag.payload engine format wire)

/-- Where `import` reads from. -/
inductive Source
  | stdin
  /-- A file, if it can be read. -/
  | file (content : Option Bytes)
  deriving DecidableEq, Repr

/-- What is read from the source, and what is left of standard input. -/
def Source.read (stdin : Stdin) : Source → Option (Bytes × Stdin)
  | .stdin => some stdin.readToEnd
  | .file content => content.map fun bs => (bs, stdin)

/-- `cmd_import`, from the reading of its input. -/
def importFrom (source : Source) (flag : Option Bytes) (anchor : Bool) (stdin : Stdin)
    (s : Option π) : Option π × Except PortError Unit :=
  match source.read stdin with
  | none => (s, .error .unreadable)
  | some (raw, stdin) =>
    match SafeBag.normalizeSafebagBytes engine raw with
    | none => (s, .error .neither)
    | some wire =>
      match f.safebagCertName wire with
      | none => (s, .error .badSafeBag)
      | some _ =>
        match resolvePassword flag false stdin with
        | .error e => (s, .error e)
        | .ok password =>
          let r := runCommand lib f s (.importBag wire password anchor)
          (r.1, r.2.mapError .sec)

end Commands

/-- What is documented of SafeBags: an exported one names its certificate, only its passphrase opens
it, and the base that it is stored in has the key and the certificate. -/
structure ExportLaws {π : Type*} (f : FilePib π) (exportSafebag : Name → Bytes → π → Option Bytes) :
    Prop where
  head : ∀ n password p wire, exportSafebag n password p = some wire → wire.head? = some 0x80
  certName : ∀ n password p wire, exportSafebag n password p = some wire →
    f.safebagCertName wire = some n
  opens : ∀ n password p wire, exportSafebag n password p = some wire →
    ∀ entered q, (f.storeSafebag n wire entered q).isSome = true ↔ entered = password
  stored : ∀ n password p wire, exportSafebag n password p = some wire →
    ∀ entered q q' cert, f.storeSafebag n wire entered q = some (q', cert) →
      n ∈ f.listKeys q' ∧ f.getCert n q' = some cert ∧ f.getCert n p = some cert

section Moving

variable {π : Type*} {engine : Base64.Engine Base64.standard} {lib : PacketLib} {f : FilePib π}
  {exportSafebag : Name → Bytes → π → Option Bytes} {p : π} {s : Option π} {identity : Name}
  {wire password entered : Bytes} {anchor : Bool} {certName : Name}

/-- A base has the key, with this certificate. -/
def Arrived (f : FilePib π) (certName : Name) (cert : Option Certificate) (s : Option π) : Prop :=
  ∃ q, s = some q ∧ certName ∈ f.listKeys q ∧ f.getCert certName q = cert

/-- An export that succeeds. -/
theorem exists_of_cmdExport {out flag : Option Bytes} {format : WireFormat} {stdin : Stdin}
    {dest bytes : Bytes} (h : cmdExport engine f exportSafebag identity out flag format stdin
      (some p) = .ok (dest, bytes)) :
    ∃ certName password wire, findCertName f p identity = some certName ∧
      resolvePassword flag true stdin = .ok password ∧ password ≠ [] ∧
      exportSafebag certName password p = some wire ∧
      bytes = SafeBag.payload engine format wire := by
  rw [cmdExport] at h
  cases hname : findCertName f p identity with
  | none => simp [hname] at h
  | some certName =>
    cases hpassword : resolvePassword flag true stdin with
    | error e => simp [hname, hpassword] at h
    | ok password =>
      simp only [hname, hpassword] at h
      split_ifs at h with hempty
      cases hwire : exportSafebag certName password p with
      | none => simp [hwire] at h
      | some wire =>
        simp only [hwire, Except.ok.injEq, Prod.mk.injEq] at h
        exact ⟨certName, password, wire, rfl, rfl, hempty, hwire, h.2.symm⟩

/-- Adding an anchor keeps keys and certificates. -/
theorem arrived_addAnchor (hk : f.KeygenLaws) {cert c : Certificate} {q : π}
    (hkey : certName ∈ f.listKeys q) (hcert : f.getCert certName q = some cert) :
    Arrived f certName (some cert) (some (addAnchor f certName c q).1) := by
  rw [addAnchor]
  cases hadd : f.addTrustAnchor certName c q with
  | none => exact ⟨q, rfl, hkey, hcert⟩
  | some q' =>
    refine ⟨q', rfl, hk.listKeys_addTrustAnchor _ _ _ _ hadd _ hkey, ?_⟩
    rw [hk.getCert_addTrustAnchor _ _ _ _ hadd]
    exact hcert

/-- With the passphrase the key arrives, and without it nothing does. -/
theorem importBag_of_export (lib : PacketLib) (hx : ExportLaws f exportSafebag) (hk : f.KeygenLaws)
    (hwire : exportSafebag certName password p = some wire) (s : Option π) (entered : Bytes)
    (anchor : Bool) : (entered = password → Arrived f certName (f.getCert certName p)
      (runCommand lib f s (.importBag wire entered anchor)).1) ∧
    (entered ≠ password → runCommand lib f s (.importBag wire entered anchor) =
      (some (base f s), .error .pib)) := by
  have hname := hx.certName _ _ _ _ hwire
  have hopens := hx.opens _ _ _ _ hwire entered (base f s)
  have hrun : runCommand lib f s (.importBag wire entered anchor) =
      (some (cmdImport f wire entered anchor (base f s)).1,
        (cmdImport f wire entered anchor (base f s)).2) := by
    rw [runCommand, hname]
    rfl
  rw [hrun, cmdImport, hname]
  dsimp only
  cases hstore : f.storeSafebag certName wire entered (base f s) with
  | none =>
    rw [hstore] at hopens
    refine ⟨fun heq => ?_, fun _ => rfl⟩
    exact absurd (hopens.mpr heq) Bool.false_ne_true
  | some r =>
    obtain ⟨q, cert⟩ := r
    obtain ⟨hkey, hq, hp⟩ := hx.stored _ _ _ _ hwire _ _ _ _ hstore
    refine ⟨fun _ => ?_, fun hne => absurd (hopens.mp (by rw [hstore]; rfl)) hne⟩
    rw [hp]
    cases anchor with
    | false => exact ⟨q, rfl, hkey, hq⟩
    | true => exact arrived_addAnchor hk hkey hq

private theorem importFrom_eq {source : Source} {stdin rest : Stdin} {text : Bytes}
    (hread : source.read stdin = some (text, rest))
    (hnormalize : SafeBag.normalizeSafebagBytes engine text = some wire)
    (hname : f.safebagCertName wire = some certName) {flag : Option Bytes}
    (hentered : resolvePassword flag false rest = .ok entered) :
    importFrom engine lib f source flag anchor stdin s =
      ((runCommand lib f s (.importBag wire entered anchor)).1,
        (runCommand lib f s (.importBag wire entered anchor)).2.mapError .sec) := by
  rw [importFrom, hread]
  simp only [hnormalize, hname, hentered]

private theorem resolvePassword_line (stdin : Stdin) : resolvePassword none false stdin =
    if Utf8.isText stdin.readLine.1 = true then .ok (Lines.trimEnd stdin.readLine.1)
    else .error .notText := by
  rw [resolvePassword, Stdin.readLinePrompt]
  dsimp only
  by_cases htext : Utf8.isText stdin.readLine.1 = true
  · simp [htext]
  · simp [htext]

/-- Nothing is left of a pipe that has been read to its end. -/
theorem resolvePassword_readToEnd {stdin : Stdin} (h : stdin.isTerminal = false) :
    resolvePassword none false stdin.readToEnd.2 = .ok [] := by
  have htail : stdin.segments.tail = [] := List.length_eq_zero_iff.mp (stdin.length_tail h)
  have hline : stdin.readToEnd.2.readLine.1 = [] := by
    rw [Stdin.fst_readLine]
    show (Lines.readLine (stdin.segments.tail.headD [])).1 = []
    rw [htail]
    rfl
  rw [resolvePassword_line, hline]
  rfl

/-- A passphrase is read from a line exactly if it can be typed. -/
theorem resolvePassword_typed {stdin : Stdin} {rest : Bytes} {more : List Bytes}
    (h : stdin.segments = (password ++ 0x0A :: rest) :: more)
    (htext : Utf8.isText password = true) :
    resolvePassword none false stdin = .ok password ↔ Lines.Typable password := by
  have hline : stdin.readLine.1 = (Lines.readLine (password ++ 0x0A :: rest)).1 := by
    rw [Stdin.fst_readLine, h]
    rfl
  rw [resolvePassword_line, hline, ← Lines.trimEnd_readLine_iff password rest]
  constructor
  · intro hresolve
    split_ifs at hresolve
    exact Except.ok.inj hresolve
  · intro htrim
    have htypable := (Lines.trimEnd_readLine_iff password rest).mp htrim
    rw [if_pos, htrim]
    rw [Lines.readLine_of_typable htypable]
    exact Lines.isText_feed htext

/-- What becomes of a text that was exported from a base under a passphrase. -/
structure Moves (engine : Base64.Engine Base64.standard) (lib : PacketLib) (f : FilePib π) (p : π)
    (certName : Name) (password text : Bytes) : Prop where
  /-- Wherever the text is read from, the passphrase decides. -/
  arrives : ∀ source stdin rest flag anchor s entered,
    Source.read stdin source = some (text, rest) → resolvePassword flag false rest = .ok entered →
      (entered = password → Arrived f certName (f.getCert certName p)
        (importFrom engine lib f source flag anchor stdin s).1) ∧
      (entered ≠ password → importFrom engine lib f source flag anchor stdin s =
        (some (base f s), .error (.sec .pib)))
  /-- A pipe that brings the text cannot bring the passphrase. -/
  piped : ∀ stdin anchor s, stdin.isTerminal = false → stdin.readToEnd.1 = text →
    importFrom engine lib f .stdin none anchor stdin s = (some (base f s), .error (.sec .pib))
  typed : Utf8.isText password = true → ∀ stdin rest more,
    stdin.segments = (password ++ 0x0A :: rest) :: more →
      (resolvePassword none false stdin = .ok password ↔ Lines.Typable password)

/-- A key that was exported arrives in every base that is given its text, in either format and
however wrapped, and its passphrase. With another passphrase, or from a pipe without one, only the
base may be created. -/
theorem export_import (hx : ExportLaws f exportSafebag) (hk : f.KeygenLaws)
    {out flag : Option Bytes} {format : WireFormat} {stdin : Stdin} {dest bytes text : Bytes}
    (hexport : cmdExport engine f exportSafebag identity out flag format stdin (some p) =
      .ok (dest, bytes))
    (htext : text = bytes ∨ format = .base64 ∧ SafeBag.Spaced bytes text) :
    ∃ certName password, findCertName f p identity = some certName ∧
      resolvePassword flag true stdin = .ok password ∧ password ≠ [] ∧
      Moves engine lib f p certName password text := by
  obtain ⟨certName, password, wire, hname, hpassword, hne, hwire, rfl⟩ :=
    exists_of_cmdExport hexport
  have hnormalize : SafeBag.normalizeSafebagBytes engine text = some wire := by
    have hhead := hx.head _ _ _ _ hwire
    rcases htext with rfl | ⟨rfl, hspaced⟩
    · exact SafeBag.normalize_payload hhead format
    · exact SafeBag.normalize_spaced hhead hspaced
  have hbag := hx.certName _ _ _ _ hwire
  refine ⟨certName, password, hname, hpassword, hne, ?_, ?_, fun htext stdin rest more h => ?_⟩
  · intro source stdin rest flag anchor s entered hread hentered
    have himport := importBag_of_export lib hx hk hwire s entered anchor
    rw [importFrom_eq hread hnormalize hbag hentered]
    refine ⟨himport.1, fun hother => ?_⟩
    rw [himport.2 hother]
    rfl
  · intro stdin anchor s hpipe hread
    have hentered := resolvePassword_readToEnd hpipe
    have himport := importBag_of_export lib hx hk hwire s [] anchor
    have hsource : Source.read stdin .stdin = some (text, stdin.readToEnd.2) := by
      rw [← hread]
      rfl
    rw [importFrom_eq hsource hnormalize hbag hentered, himport.2 fun h => hne h.symm]
    rfl
  · exact resolvePassword_typed h htext

/-- A certificate of the router. -/
def routerCert : Certificate := ⟨keyPrefix router, [0x01], 0, 10, .ecdsa⟩

/-- Bases in memory whose SafeBags are all of one key, and show their passphrase. -/
def oneKey : FilePib MemoryPib :=
  { memoryPib with
    safebagCertName := fun _ => some routerCert.name
    storeSafebag := fun name wire password p =>
      if wire = 0x80 :: password then
        some (⟨p.keys.filter (· ≠ name) ++ [name], routerCert :: p.certs, p.trusted⟩, routerCert)
      else none }

/-- What they export: nothing but that key. -/
def oneKeyExport (name : Name) (password : Bytes) (p : MemoryPib) : Option Bytes :=
  if name = routerCert.name ∧ memoryPib.getCert name p = some routerCert then
    some (0x80 :: password)
  else none

private theorem oneKey_keygenLaws : oneKey.KeygenLaws :=
  ⟨memoryPib_keygenLaws.listed, memoryPib_keygenLaws.listKeys_storeCert,
    memoryPib_keygenLaws.getCert_storeCert, memoryPib_keygenLaws.listKeys_addTrustAnchor,
    memoryPib_keygenLaws.getCert_addTrustAnchor, memoryPib_keygenLaws.anchored⟩

private theorem oneKey_exportLaws : ExportLaws oneKey oneKeyExport where
  head n password p wire h := by
    rw [oneKeyExport] at h
    split_ifs at h
    rw [← Option.some.inj h]
    rfl
  certName n password p wire h := by
    rw [oneKeyExport] at h
    split_ifs at h with hname
    rw [hname.1]
    rfl
  opens n password p wire h entered q := by
    rw [oneKeyExport] at h
    split_ifs at h
    obtain rfl := Option.some.inj h
    simp only [oneKey]
    split_ifs with hentered
    · exact iff_of_true rfl (List.cons.inj hentered).2.symm
    · exact iff_of_false Bool.false_ne_true fun heq => hentered (congrArg _ heq.symm)
  stored n password p wire h entered q q' cert hstore := by
    rw [oneKeyExport] at h
    split_ifs at h with hname
    obtain rfl := Option.some.inj h
    simp only [oneKey] at hstore
    split_ifs at hstore
    obtain ⟨rfl, rfl⟩ := Prod.mk.inj (Option.some.inj hstore)
    refine ⟨List.mem_append_right _ (List.mem_singleton_self _), ?_, hname.2⟩
    show (routerCert :: q.certs).find? (fun cert => cert.name = n) = some routerCert
    rw [List.find?_cons_of_pos]
    exact decide_eq_true hname.1.symm

/-- A base that holds it. -/
def routerPib : MemoryPib := ⟨[routerCert.name], [routerCert], []⟩

/-- No terminal, and nothing to read. -/
def noInput : Stdin := ⟨[], false, fun _ => Nat.zero_le 1⟩

/-- The router's key, under the passphrase `x`, moves as this text. -/
def RouterMoves (text : Bytes) : Prop :=
  ∃ certName password, findCertName oneKey routerPib router = some certName ∧
    resolvePassword (some [0x78]) true noInput = .ok password ∧ password ≠ [] ∧
    Moves (.canonical Base64.standard) .conventions oneKey routerPib certName password text

/-- It moves as it is, and as the lines `gH` and `g=`. -/
theorem router_moves :
    RouterMoves [0x80, 0x78] ∧ RouterMoves [0x67, 0x48, 0x0D, 0x0A, 0x67, 0x3D, 0x0A] := by
  have hraw : cmdExport (.canonical Base64.standard) oneKey oneKeyExport router (some [0x2D])
      (some [0x78]) .raw noInput (some routerPib) = .ok ([0x2D], [0x80, 0x78]) := by
    decide +kernel
  have hbase64 : cmdExport (.canonical Base64.standard) oneKey oneKeyExport router (some [0x2D])
      (some [0x78]) .base64 noInput (some routerPib) =
        .ok ([0x2D], [0x67, 0x48, 0x67, 0x3D, 0x0A]) := by
    decide +kernel
  have hwrapped : SafeBag.Spaced [0x67, 0x48, 0x67, 0x3D, 0x0A]
      [0x67, 0x48, 0x0D, 0x0A, 0x67, 0x3D, 0x0A] :=
    .keep _ (.keep _ (.insert rfl (.insert rfl (.refl _))))
  exact ⟨export_import oneKey_exportLaws oneKey_keygenLaws hraw (.inl rfl),
    export_import oneKey_exportLaws oneKey_keygenLaws hbase64 (.inr ⟨rfl, hwrapped⟩)⟩

end Moving

end NdnFwd.Sec
