import FsspecDb.Path.FormEncoding
import FsspecDb.Text.Split

/-!
# Connection options in one text (postgres.py, mysql.py, `_dsn_from_options`)

The parts of a connection are written into a URL, and the server's driver takes the URL apart. All
but the host are escaped.
-/

namespace FsspecDb.Client
open Text Urllib Utf8

/-- The options as text, where they are given. -/
structure ConnectOptions where
  host : Option Str
  database : Option Str
  dbname : Option Str
  user : Option Str
  username : Option Str
  password : Option Str
  port : Option Str
  sslmode : Option Str
  sslMode : Option Str
  charset : Option Str
  deriving Repr, DecidableEq

/- `a or b` of texts. -/
def pyOr (a b : Option Str) : Option Str := if a.any (fun text => !text.isEmpty) then a else b

/- Under the name if the text is there and not empty. -/
def itemOf (name : Str) (value : Option Str) : List (Str × Str) :=
  (value.filter fun text => !text.isEmpty).toList.map fun text => (name, text)

namespace ConnectOptions
variable (options : ConnectOptions)

def databaseName : Option Str := (pyOr options.database options.dbname).filter fun text =>
  !text.isEmpty

def userName : Option Str := pyOr options.user options.username

/- A password without a user is left out. -/
def userPassword : Option Str := options.userName.bind fun _ => options.password

def postgresItems : List (Str × Str) := itemOf "sslmode".toList options.sslmode

def mysqlItems : List (Str × Str) :=
  itemOf "ssl-mode".toList (pyOr options.sslMode options.sslmode) ++
    itemOf "charset".toList options.charset

def auth : Str :=
  match options.userName with
  | none => []
  | some user =>
    quote [] user ++ (options.password.elim [] fun password => ':' :: quote [] password) ++ ['@']

def portText : Str := options.port.elim [] fun port => ':' :: port

end ConnectOptions

/- What the two functions share: the scheme and the items of the query are their own. -/
def dsnOf (scheme : Str) (items : List (Str × Str)) (options : ConnectOptions) : Option Str :=
  options.host.map fun host =>
    scheme ++ "://".toList ++ options.auth ++ host ++ options.portText ++
      (options.databaseName.elim [] fun database => '/' :: quote [] database) ++
      if items = [] then [] else '?' :: urlencode items

def Postgres.dsnFromOptions (options : ConnectOptions) : Option Str :=
  dsnOf "postgresql".toList options.postgresItems options

def MySql.dsnFromOptions (options : ConnectOptions) : Option Str :=
  dsnOf "mysql".toList options.mysqlItems options

/-! ### Reading a URL -/

/-- The parts of a connection URL. -/
structure Dsn where
  scheme : Str
  user : Option Str
  password : Option Str
  host : Str
  port : Option Str
  database : Option Str
  items : List (Str × Str)
  deriving Repr, DecidableEq

/- What ends the authority of a URL. -/
def endsAuthority (c : Char) : Bool := c = '/' || c = '?' || c = '#'

/- The user and the password before the last `@`. -/
def readAuth (text : Str) : (Option Str × Option Str) × Str :=
  match rsplitOnce text '@' with
  | none => ((none, none), text)
  | some (auth, rest) =>
    match splitOnce auth [':'] with
    | none => ((some (percentDecode auth), none), rest)
    | some (user, password) => ((some (percentDecode user), some (percentDecode password)), rest)

/-- What a reader of URLs takes, as it stands, as the name of a host and as an address in
brackets. -/
structure HostNames where
  isName : Str → Bool
  isAddress : Str → Bool

def isPort (text : Str) : Bool := !text.isEmpty && text.all Char.isDigit

/- What stands behind the host. -/
def readPort : Str → Option (Option Str)
  | [] => some none
  | ':' :: port => if isPort port then some (some port) else none
  | _ => none

/- An address has its colons in brackets; behind a name the first colon begins the port. -/
def readHost (hosts : HostNames) (authority : Str) : Option (Str × Option Str) :=
  match authority with
  | '[' :: text => do
    let (address, rest) ← splitOnce text [']']
    let port ← readPort rest
    if hosts.isAddress address then some ('[' :: address ++ [']'], port) else none
  | _ => do
    let port ← readPort (authority.dropWhile fun c => c ≠ ':')
    let name := authority.takeWhile fun c => c ≠ ':'
    if hosts.isName name then some (name, port) else none

/- The database is the path without its slash. -/
def readDatabase (path : Str) : Option Str :=
  if path.drop 1 = [] then none else some (percentDecode (path.drop 1))

def readDsn (hosts : HostNames) (text : Str) : Option Dsn :=
  (splitOnce text "://".toList).bind fun (scheme, rest) =>
    let (names, authority) := readAuth (rest.takeWhile fun c => !endsAuthority c)
    let rest := (rest.dropWhile fun c => !endsAuthority c).takeWhile fun c => c ≠ '#'
    (readHost hosts authority).map fun (host, port) =>
    { scheme := scheme
      user := names.1
      password := names.2
      host := host
      port := port
      database := readDatabase (rest.takeWhile fun c => c ≠ '?')
      items := decodeQuery ((rest.dropWhile fun c => c ≠ '?').drop 1) }

/-! ### Escaped text -/

theorem quoter_spec (b : Byte) : ∀ c ∈ quoter [] b, c ∉ "/?#@:+".toList := by
  have hall : ∀ n < 256, (quoter [] (UInt8.ofNat n)).all
      (fun c => !"/?#@:+".toList.contains c) = true := by
    decide +kernel
  have h := hall b.toNat b.toNat_lt
  rw [UInt8.ofNat_toNat, List.all_eq_true] at h
  intro c hc hmem
  have hnot := h c hc
  rw [List.contains_iff_mem.mpr hmem] at hnot
  cases hnot

theorem quote_plain (text : Str) : ∀ c ∈ quote [] text, c ∉ "/?#@:+".toList := by
  intro c hc
  obtain ⟨b, _, hb⟩ := List.mem_flatMap.mp hc
  exact quoter_spec b c hb

theorem percentDecodeBytes_quoter (b : Byte) (rest : List Byte) :
    percentDecodeBytes (encode (quoter [] b) ++ rest) = b :: percentDecodeBytes rest := by
  by_cases hspace : b = 0x20
  · subst hspace
    rfl
  · have hform : formByte b = quoter [] b := if_neg hspace
    rw [← hform]
    exact percentDecodeBytes_formByte b rest

theorem percentDecode_quote (text : Str) : percentDecode (quote [] text) = text := by
  have hbytes (bytes : List Byte) :
      percentDecodeBytes (encode (bytes.flatMap (quoter []))) = bytes := by
    induction bytes with
    | nil => rfl
    | cons b bytes ih =>
      have hencode : encode ((b :: bytes).flatMap (quoter [])) =
          encode (quoter [] b) ++ encode (bytes.flatMap (quoter [])) := List.flatMap_append
      rw [hencode, percentDecodeBytes_quoter, ih]
  rw [percentDecode, quote, hbytes, fromUtf8Lossy_encode]

theorem urlencode_plain (items : List (Str × Str)) : '#' ∉ urlencode items := by
  have hform (text : Str) : '#' ∉ quotePlus text := by
    rw [quotePlus_eq]
    intro h
    obtain ⟨b, _, hb⟩ := List.mem_flatMap.mp h
    unfold formByte at hb
    split at hb
    · exact absurd hb (by decide)
    · exact quoter_spec b '#' hb (by decide)
  unfold urlencode
  induction items with
  | nil => exact List.not_mem_nil
  | cons item items ih =>
    have hitem : '#' ∉ quotePlus item.1 ++ '=' :: quotePlus item.2 := by
      rw [List.mem_append, List.mem_cons, not_or, not_or]
      exact ⟨hform item.1, by decide, hform item.2⟩
    cases items with
    | nil => simpa [join, List.intercalate] using hitem
    | cons next items =>
      have hjoin : join ['&'] ((item :: next :: items).map fun (key, value) =>
          quotePlus key ++ '=' :: quotePlus value) =
          (quotePlus item.1 ++ '=' :: quotePlus item.2) ++ '&' ::
            join ['&'] ((next :: items).map fun (key, value) =>
              quotePlus key ++ '=' :: quotePlus value) := by
        simp [join, List.intercalate]
      rw [hjoin, List.mem_append, List.mem_cons, not_or, not_or]
      exact ⟨hitem, by decide, ih⟩

/-! ### Reading what was written -/

/- What stands before the first character that is not wanted. -/
theorem while_append (p : Char → Bool) (before rest : Str) (hbefore : ∀ c ∈ before, p c = true)
    (hrest : ∀ c ∈ rest.head?, p c = false) :
    (before ++ rest).takeWhile p = before ∧ (before ++ rest).dropWhile p = rest := by
  rw [List.takeWhile_append_of_pos hbefore, List.dropWhile_append_of_pos hbefore]
  cases rest with
  | nil => exact ⟨List.append_nil before, rfl⟩
  | cons c rest =>
    have hc : p c = false := hrest c rfl
    rw [List.takeWhile_cons_of_neg (by simp [hc]), List.dropWhile_cons_of_neg (by simp [hc])]
    exact ⟨List.append_nil before, rfl⟩

theorem endsAuthority_eq_false (others : Str) (hothers : "/?#".toList ⊆ others) (c : Char)
    (hc : c ∉ others) : endsAuthority c = false := by
  rw [endsAuthority, Bool.or_eq_false_iff, Bool.or_eq_false_iff]
  refine ⟨⟨decide_eq_false ?_, decide_eq_false ?_⟩, decide_eq_false ?_⟩
  · rintro rfl
    exact hc (hothers (by decide))
  · rintro rfl
    exact hc (hothers (by decide))
  · rintro rfl
    exact hc (hothers (by decide))

/- A host with its port that ends nothing and starts nothing. -/
def PlainAuthority (authority : Str) : Prop := ∀ c ∈ authority, c ∉ "/?#@".toList

/-- A host that stays one part of the URL: an address in brackets, or a name without a colon, and
none of the characters that end the authority or the user in front of it. -/
def PlainHost (hosts : HostNames) (host : Str) : Prop :=
  PlainAuthority host ∧
    ((∃ address, host = '[' :: address ++ [']'] ∧ ']' ∉ address ∧ hosts.isAddress address) ∨
      (host.head? ≠ some '[' ∧ ':' ∉ host ∧ hosts.isName host))

def PlainPort (port : Option Str) : Prop := ∀ text ∈ port, isPort text

section
variable (hosts : HostNames)

theorem portText_cases (port : Option Str) :
    (port.elim [] fun port => ':' :: port) = [] ∨
      (port.elim [] fun port => ':' :: port).head? = some ':' := by
  cases port with
  | none => exact .inl rfl
  | some text => exact .inr rfl

theorem readPort_portText (port : Option Str) (h : PlainPort port) :
    readPort (port.elim [] fun port => ':' :: port) = some port := by
  cases port with
  | none => rfl
  | some text => exact if_pos (h text rfl)

theorem readPort_spec (text : Str) (port : Option Str) (h : readPort text = some port) :
    PlainPort port := by
  intro digits hdigits
  obtain rfl := hdigits
  unfold readPort at h
  split at h
  · cases h
  · split at h
    · next hport =>
      rw [← Option.some.inj (Option.some.inj h)]
      exact hport
    · cases h
  · cases h

theorem readHost_host (host : Str) (port : Option Str) (hhost : PlainHost hosts host)
    (hport : PlainPort port) :
    readHost hosts (host ++ port.elim [] fun port => ':' :: port) = some (host, port) := by
  rcases hhost.2 with ⟨address, rfl, hclosed, haddress⟩ | ⟨hopen, hcolon, hname⟩
  · have hsplit : splitOnce (address ++ ']' :: port.elim [] fun port => ':' :: port) [']'] =
        some (address, port.elim [] fun port => ':' :: port) := splitOnce_append _ _ _ hclosed
    rw [List.cons_append, List.cons_append, List.append_assoc, List.singleton_append, readHost,
      hsplit]
    simp only [Option.bind_eq_bind, Option.bind_some, readPort_portText port hport, haddress,
      if_true, List.cons_append]
  · have hhead : (host ++ port.elim [] fun port => ':' :: port).head? ≠ some '[' := by
      cases host with
      | nil =>
        rcases portText_cases port with hnil | hsome
        · rw [List.nil_append, hnil]
          exact Option.some_ne_none '[' ∘ Eq.symm
        · rw [List.nil_append, hsome]
          decide
      | cons c host => exact hopen
    obtain ⟨htake, hdrop⟩ := while_append (fun c => c ≠ ':') host
      (port.elim [] fun port => ':' :: port)
      (fun c hc => decide_eq_true fun heq => hcolon (heq ▸ hc)) fun c hc => by
        rcases portText_cases port with hnil | hsome
        · rw [hnil] at hc
          cases hc
        · rw [hsome] at hc
          rw [← Option.some.inj hc]
          rfl
    unfold readHost
    split
    · next text heq =>
      rw [heq] at hhead
      exact absurd rfl hhead
    · simp only [htake, hdrop, readPort_portText port hport, Option.bind_eq_bind,
        Option.bind_some, hname, if_true]

theorem readHost_spec (authority host : Str) (port : Option Str)
    (hplain : PlainAuthority authority) (h : readHost hosts authority = some (host, port)) :
    PlainHost hosts host ∧ PlainPort port := by
  unfold readHost at h
  split at h
  · next text =>
    obtain ⟨⟨address, rest⟩, hsplit, h⟩ := Option.bind_eq_some_iff.mp h
    obtain ⟨port', hport, h⟩ := Option.bind_eq_some_iff.mp h
    split at h
    · next haddress =>
      obtain ⟨rfl, rfl⟩ := Prod.mk.inj (Option.some.inj h)
      obtain ⟨htext, hclosed⟩ := splitOnce_char_eq_some text address rest ']' hsplit
      refine ⟨⟨fun c hc => hplain c ?_, .inl ⟨address, rfl, hclosed, haddress⟩⟩,
        readPort_spec rest port' hport⟩
      rw [htext]
      simp only [List.cons_append, List.mem_cons, List.mem_append, List.not_mem_nil] at hc ⊢
      tauto
    · cases h
  · next hopen =>
    obtain ⟨port', hport, h⟩ := Option.bind_eq_some_iff.mp h
    dsimp only at h
    split at h
    · next hname =>
      obtain ⟨rfl, rfl⟩ := Prod.mk.inj (Option.some.inj h)
      refine ⟨⟨fun c hc => hplain c (List.takeWhile_subset _ hc), .inr ⟨?_, ?_, hname⟩⟩,
        readPort_spec _ port' hport⟩
      · intro hhead
        cases authority with
        | nil => cases hhead
        | cons c text =>
          by_cases hcolon : c = ':'
          · rw [List.takeWhile_cons_of_neg (by simp [hcolon])] at hhead
            cases hhead
          · rw [List.takeWhile_cons_of_pos (by simp [hcolon])] at hhead
            obtain rfl := Option.some.inj hhead
            exact hopen text rfl
      · intro hcolon
        have hwhile := List.mem_takeWhile_imp hcolon
        simp at hwhile
    · cases h

theorem plainAuthority_host (host : Str) (port : Option Str) (hhost : PlainAuthority host)
    (hport : PlainPort port) :
    PlainAuthority (host ++ port.elim [] fun port => ':' :: port) := by
  intro c hc
  rcases List.mem_append.mp hc with hc | hc
  · exact hhost c hc
  · cases port with
    | none => exact absurd hc List.not_mem_nil
    | some text =>
      have hdigits := hport text rfl
      rw [isPort, Bool.and_eq_true, List.all_eq_true] at hdigits
      rcases List.mem_cons.mp hc with rfl | hc
      · decide
      · intro hspecial
        have hdigit := hdigits.2 c hc
        have hnone : ¬ "/?#@".toList.any Char.isDigit = true := by decide
        exact hnone (List.any_eq_true.mpr ⟨c, hspecial, hdigit⟩)

end

namespace ConnectOptions
variable (options : ConnectOptions)

theorem readAuth_auth (authority : Str) (hplain : '@' ∉ authority) :
    readAuth (options.auth ++ authority) =
      ((options.userName, options.userPassword), authority) := by
  unfold auth userPassword
  cases options.userName with
  | none =>
    rw [List.nil_append, readAuth, (rsplitOnce_eq_none_iff authority '@').mpr hplain]
    rfl
  | some user =>
    have hcolon : ':' ∉ quote [] user := fun h => quote_plain user ':' h (by decide)
    rw [List.append_assoc, List.singleton_append, readAuth, rsplitOnce_append _ _ _ hplain]
    cases options.password with
    | none =>
      have hnone : splitOnce (quote [] user) [':'] = none := splitOnce_eq_none _ _ _ hcolon
      rw [Option.elim_none, List.append_nil]
      simp only [hnone, percentDecode_quote, Option.bind_some]
    | some password =>
      have hsome : splitOnce (quote [] user ++ ':' :: quote [] password) [':'] =
          some (quote [] user, quote [] password) := splitOnce_append _ _ _ hcolon
      rw [Option.elim_some]
      simp only [hsome, percentDecode_quote, Option.bind_some]

theorem auth_plain : ∀ c ∈ options.auth, endsAuthority c = false := by
  have hquote (text : Str) : ∀ c ∈ quote [] text, endsAuthority c = false := by
    intro c hc
    exact endsAuthority_eq_false _ (by decide) c (quote_plain text c hc)
  unfold auth
  cases options.userName with
  | none => exact fun c hc => absurd hc List.not_mem_nil
  | some user =>
    intro c hc
    rw [List.mem_append, List.mem_append, List.mem_singleton] at hc
    rcases hc with (hc | hc) | rfl
    · exact hquote user c hc
    · cases hpassword : options.password with
      | none =>
        rw [hpassword] at hc
        exact absurd hc List.not_mem_nil
      | some password =>
        rw [hpassword, Option.elim_some, List.mem_cons] at hc
        rcases hc with rfl | hc
        · decide
        · exact hquote password c hc
    · decide

/- The path of a database name. -/
def path : Str := options.databaseName.elim [] fun database => '/' :: quote [] database

theorem path_plain : ∀ c ∈ options.path, c ∉ "?#".toList := by
  unfold path
  cases options.databaseName with
  | none => exact fun c hc => absurd hc List.not_mem_nil
  | some database =>
    intro c hc
    rw [Option.elim_some, List.mem_cons] at hc
    rcases hc with rfl | hc
    · decide
    · intro hmem
      have hquote := quote_plain database c hc
      have hsub : "?#".toList ⊆ "/?#@:+".toList := by decide
      exact hquote (hsub hmem)

theorem readDatabase_path : readDatabase options.path = options.databaseName := by
  unfold path
  cases hdatabase : options.databaseName with
  | none => rfl
  | some database =>
    have hne : quote [] database ≠ [] := by
      intro hnil
      have hback := percentDecode_quote database
      rw [hnil] at hback
      obtain rfl : [] = database := hback
      obtain ⟨_, hfilter⟩ := Option.filter_eq_some_iff.mp hdatabase
      cases hfilter
    rw [Option.elim_some, readDatabase, List.drop_one, List.tail_cons, if_neg hne,
      percentDecode_quote]

/- What the options mean. -/
def meant (scheme : Str) (items : List (Str × Str)) (host : Str) : Dsn where
  scheme := scheme
  user := options.userName
  password := options.userPassword
  host := host
  port := options.port
  database := options.databaseName
  items := items

end ConnectOptions

/- The query of the URL. -/
def queryPart (items : List (Str × Str)) : Str := if items = [] then [] else '?' :: urlencode items

theorem decodeQuery_queryPart (items : List (Str × Str)) :
    decodeQuery ((queryPart items).drop 1) = items := by
  unfold queryPart
  split
  · next hempty =>
    rw [hempty]
    rfl
  · rw [List.drop_one, List.tail_cons, decodeQuery_urlencode]

theorem queryPart_plain (items : List (Str × Str)) : '#' ∉ queryPart items := by
  unfold queryPart
  split
  · exact List.not_mem_nil
  · rw [List.mem_cons, not_or]
    exact ⟨by decide, urlencode_plain items⟩

theorem queryPart_head (items : List (Str × Str)) : ∀ c ∈ (queryPart items).head?, c = '?' := by
  unfold queryPart
  split
  · intro c hc
    cases hc
  · intro c hc
    exact (Option.some.inj hc).symm

theorem path_head (options : ConnectOptions) (items : List (Str × Str)) :
    ∀ c ∈ (options.path ++ queryPart items).head?, endsAuthority c = true := by
  unfold ConnectOptions.path
  cases options.databaseName with
  | none =>
    intro c hc
    rw [queryPart_head items c hc]
    decide
  | some database =>
    intro c hc
    obtain rfl := Option.some.inj hc
    decide

theorem plainAuthority_of_ends (authority : Str)
    (hends : ∀ c ∈ authority, endsAuthority c = false) (hat : '@' ∉ authority) :
    PlainAuthority authority := by
  intro c hc hspecial
  have hnot := hends c hc
  have hfour : "/?#@".toList = ['/', '?', '#', '@'] := by decide
  rw [hfour, List.mem_cons, List.mem_cons, List.mem_cons, List.mem_singleton] at hspecial
  rcases hspecial with rfl | rfl | rfl | rfl
  · exact absurd hnot (by decide)
  · exact absurd hnot (by decide)
  · exact absurd hnot (by decide)
  · exact hat hc

theorem readAuth_plain (text : Str) (hends : ∀ c ∈ text, endsAuthority c = false) :
    PlainAuthority (readAuth text).2 := by
  cases hsplit : rsplitOnce text '@' with
  | none =>
    rw [readAuth, hsplit]
    exact plainAuthority_of_ends text hends ((rsplitOnce_eq_none_iff text '@').mp hsplit)
  | some parts =>
    obtain ⟨htext, hat⟩ := (rsplitOnce_eq_some_iff text parts.1 parts.2 '@').mp hsplit
    have hrest : (readAuth text).2 = parts.2 := by
      rw [readAuth, hsplit]
      dsimp only
      cases splitOnce parts.1 [':'] <;> rfl
    rw [hrest]
    refine plainAuthority_of_ends parts.2 (fun c hc => hends c ?_) hat
    rw [htext]
    exact List.mem_append_right _ (List.mem_cons_of_mem _ hc)

/- What is read of the authority is plain, whatever the text. -/
theorem readDsn_plain (hosts : HostNames) (text : Str) (dsn : Dsn)
    (h : readDsn hosts text = some dsn) : PlainHost hosts dsn.host ∧ PlainPort dsn.port := by
  obtain ⟨⟨scheme, rest⟩, _, h⟩ := Option.bind_eq_some_iff.mp h
  obtain ⟨⟨host, port⟩, hread, rfl⟩ := Option.map_eq_some_iff.mp h
  have hends : ∀ c ∈ rest.takeWhile (fun c => !endsAuthority c), endsAuthority c = false := by
    intro c hc
    have hwhile := List.mem_takeWhile_imp hc
    rwa [Bool.not_eq_true'] at hwhile
  exact readHost_spec hosts _ host port (readAuth_plain _ hends) hread

/- The separator behind the scheme is the first one, whatever is in the options. -/
theorem splitOnce_dsnOf (scheme : Str) (hscheme : ':' ∉ scheme) (items : List (Str × Str))
    (options : ConnectOptions) (host text : Str) (hhost : options.host = some host)
    (htext : dsnOf scheme items options = some text) :
    splitOnce text "://".toList = some (scheme,
      (options.auth ++ (host ++ options.portText)) ++ (options.path ++ queryPart items)) := by
  rw [dsnOf, hhost] at htext
  rw [← Option.some.inj htext, ← splitOnce_append_separator scheme _ "//".toList ':' hscheme]
  simp only [List.append_assoc]
  rfl

theorem readDsn_dsnOf (hosts : HostNames) (scheme : Str) (hscheme : ':' ∉ scheme)
    (items : List (Str × Str)) (options : ConnectOptions) (host text : Str)
    (hhost : options.host = some host) (htext : dsnOf scheme items options = some text) :
    readDsn hosts text = some (options.meant scheme items host) ↔
      PlainHost hosts host ∧ PlainPort options.port := by
  constructor
  · exact readDsn_plain hosts text _
  · rintro ⟨hplainHost, hplainPort⟩
    have hplain : PlainAuthority (host ++ options.portText) :=
      plainAuthority_host host options.port hplainHost.1 hplainPort
    have hat : '@' ∉ host ++ options.portText := fun h => hplain '@' h (by decide)
    have hauthority : ∀ c ∈ options.auth ++ (host ++ options.portText),
        (!endsAuthority c) = true := by
      intro c hc
      rw [Bool.not_eq_true']
      rcases List.mem_append.mp hc with hc | hc
      · exact options.auth_plain c hc
      · exact endsAuthority_eq_false _ (by decide) c (hplain c hc)
    obtain ⟨hwhile, hrest⟩ := while_append (fun c => !endsAuthority c)
      (options.auth ++ (host ++ options.portText)) (options.path ++ queryPart items) hauthority
      fun c hc => by rw [path_head options items c hc]; rfl
    have hfragment : (options.path ++ queryPart items).takeWhile (fun c => c ≠ '#') =
        options.path ++ queryPart items := by
      rw [List.takeWhile_eq_self_iff]
      intro c hc
      apply decide_eq_true
      rintro rfl
      rcases List.mem_append.mp hc with hc | hc
      · exact options.path_plain '#' hc (by decide)
      · exact queryPart_plain items hc
    obtain ⟨hpath, hquery⟩ := while_append (fun c => c ≠ '?') options.path (queryPart items)
      (fun c hc => decide_eq_true fun heq => options.path_plain c hc (by rw [heq]; decide))
      fun c hc => decide_eq_false (not_not_intro (queryPart_head items c hc))
    have hsplit := splitOnce_dsnOf scheme hscheme items options host text hhost htext
    have hreadHost := readHost_host hosts host options.port hplainHost hplainPort
    rw [readDsn, hsplit, Option.bind_some]
    simp only [hwhile, hrest, hfragment, hpath, hquery, options.readAuth_auth _ hat,
      options.readDatabase_path, decodeQuery_queryPart]
    rw [ConnectOptions.portText, hreadHost]
    rfl

/-- Both servers' texts are written whenever there is a host, and read back to the options as meant
if and only if the host is an address in brackets or a name without a character that a URL gives a
meaning to, and the port is a number. -/
theorem dsn_reads_back (hosts : HostNames) (options : ConnectOptions) (host : Str)
    (hhost : options.host = some host) :
    (∃ text, Postgres.dsnFromOptions options = some text ∧
      (readDsn hosts text = some (options.meant "postgresql".toList options.postgresItems host) ↔
        PlainHost hosts host ∧ PlainPort options.port)) ∧
    ∃ text, MySql.dsnFromOptions options = some text ∧
      (readDsn hosts text = some (options.meant "mysql".toList options.mysqlItems host) ↔
        PlainHost hosts host ∧ PlainPort options.port) := by
  have hreads (scheme : Str) (hscheme : ':' ∉ scheme) (items : List (Str × Str)) :
      ∃ text, dsnOf scheme items options = some text ∧
        (readDsn hosts text = some (options.meant scheme items host) ↔
          PlainHost hosts host ∧ PlainPort options.port) := by
    obtain ⟨text, htext⟩ : ∃ text, dsnOf scheme items options = some text := by
      rw [dsnOf, hhost, Option.map_some]
      exact ⟨_, rfl⟩
    exact ⟨text, htext, readDsn_dsnOf hosts scheme hscheme items options host text hhost htext⟩
  constructor
  · exact hreads "postgresql".toList (by decide) options.postgresItems
  · exact hreads "mysql".toList (by decide) options.mysqlItems

/- Names and a password with every separator in them. -/
def awkwardOptions : ConnectOptions where
  host := some "[::1]".toList
  database := some "my db?#".toList
  dbname := none
  user := some "a@b:c".toList
  username := none
  password := some "p:w/x@".toList
  port := some "5432".toList
  sslmode := some "require".toList
  sslMode := none
  charset := some "utf8&x=1".toList

/- Letters, digits, dots and dashes make a name, digits and colons an address. -/
def plainNames : HostNames where
  isName name := !name.isEmpty && name.all fun c => c.isAlphanum || c = '.' || c = '-'
  isAddress address := address.all fun c => "0123456789abcdef:.".toList.contains c

/- The colons of an address without brackets are no part of a host. -/
example : readHost plainNames "::1:5432".toList = none ∧
    readHost plainNames "db:5433".toList = some ("db".toList, some "5433".toList) := by
  decide

theorem dsn_reads_back_awkward :
    (∃ text, Postgres.dsnFromOptions awkwardOptions = some text ∧
      readDsn plainNames text = some (awkwardOptions.meant "postgresql".toList
        [("sslmode".toList, "require".toList)] "[::1]".toList)) ∧
    ∃ text, MySql.dsnFromOptions awkwardOptions = some text ∧
      readDsn plainNames text = some (awkwardOptions.meant "mysql".toList
        [("ssl-mode".toList, "require".toList), ("charset".toList, "utf8&x=1".toList)]
        "[::1]".toList) := by
  have hhost : PlainHost plainNames "[::1]".toList := by
    refine ⟨?_, .inl ⟨"::1".toList, by decide, by decide, by decide⟩⟩
    rw [PlainAuthority, ← List.forall_iff_forall_mem]
    decide
  have hport : PlainPort awkwardOptions.port := by
    intro text htext
    obtain rfl := Option.some.inj htext
    decide
  obtain ⟨⟨text, htext, hread⟩, ⟨other, hother, hback⟩⟩ :=
    dsn_reads_back plainNames awkwardOptions "[::1]".toList rfl
  exact ⟨⟨text, htext, hread.mpr ⟨hhost, hport⟩⟩, ⟨other, hother, hback.mpr ⟨hhost, hport⟩⟩⟩

end FsspecDb.Client
