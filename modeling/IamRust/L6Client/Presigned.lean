import IamRust.L0Core.Percent
import IamRust.L3Service.ObjectStore
import IamRust.L4Properties.GroupSize
import IamRust.L4Properties.References
import IamRust.L6Client.Schedule
import Mathlib.Data.List.Sort

/-!
# Presigned URLs

The server signs what it asks of the object store, for itself and for the uploader:
the canonical request is the method, the path, the query, the headers line by line and
the names of the headers; the text that is signed holds its hash.

* `canonicalRequest_inj`: the canonical request determines the method, the key, the
  expiry, the second and the headers.
* `signatures_bind`: in every store that is reached, the server signs the same text for two
  attachments only when it is the same use of the same attachment in the same second.

A presigned URL is so good for nothing else than it was made for. Hash and HMAC are
parameters; the hash is taken to tell the two requests apart.
-/
namespace IamRust

open Core

/-! ## Times -/

/-- The seconds since the beginning of the year 0. -/
def DateTime.second (t : DateTime) : Nat := t.sinceZero.toNat / TimeText.nanosOfSecond

/-- `%Y%m%d`, for the years 0 to 9999. -/
def compactDate (day : Nat) : List Char :=
  let year := TimeText.yearOf day
  let dayOfYear := day - TimeText.daysBeforeYear year
  let month := TimeText.monthOf (TimeText.isLeap year) dayOfYear
  TimeText.digits 4 year ++ (TimeText.digits 2 (month + 1) ++
    TimeText.digits 2 (dayOfYear - TimeText.daysBeforeMonth (TimeText.isLeap year) month + 1))

/-- `%H%M%S`. -/
def compactClock (second : Nat) : List Char :=
  TimeText.digits 2 (second / 3600) ++ (TimeText.digits 2 (second % 3600 / 60) ++
    TimeText.digits 2 (second % 60))

/-- `now.format("%Y%m%d")`. -/
def DateTime.date (t : DateTime) : String :=
  String.ofList (compactDate (t.second / TimeText.secondsOfDay))

/-- `now.format("%Y%m%dT%H%M%SZ")`. -/
def DateTime.amzDate (t : DateTime) : String :=
  String.ofList (compactDate (t.second / TimeText.secondsOfDay) ++
    ('T' :: compactClock (t.second % TimeText.secondsOfDay) ++ ['Z']))

example : DateTime.amzDate 951827696120000000 = "20000229T123456Z" := by decide +kernel

/-- What grows with the number tells numbers apart. -/
theorem inj_of_grows {f : Nat → List Char} {bound : Nat}
    (hf : ∀ {d d' : Nat}, d < d' → d' < bound → f d < f d') {d d' : Nat} (hd : d < bound)
    (hd' : d' < bound) (h : f d = f d') : d = d' := by
  rcases Nat.lt_trichotomy d d' with hlt | heq | hgt
  · have hgrows := hf hlt hd'
    rw [h] at hgrows
    exact absurd hgrows (List.lt_irrefl _)
  · exact heq
  · have hgrows := hf hgt hd
    rw [h] at hgrows
    exact absurd hgrows (List.lt_irrefl _)

theorem dateText_inj {d d' : Nat} (hd : d < TimeText.daysBeforeYear 10000)
    (hd' : d' < TimeText.daysBeforeYear 10000) (h : TimeText.dateText d = TimeText.dateText d') :
    d = d' := inj_of_grows TimeText.dateText_lt hd hd' h

theorem clockText_inj {s s' : Nat} (hs : s < TimeText.secondsOfDay)
    (hs' : s' < TimeText.secondsOfDay) (h : TimeText.clockText s = TimeText.clockText s') :
    s = s' := inj_of_grows TimeText.clockText_lt hs hs' h

theorem compactDate_inj {d d' : Nat} (hd : d < TimeText.daysBeforeYear 10000)
    (hd' : d' < TimeText.daysBeforeYear 10000) (h : compactDate d = compactDate d') : d = d' := by
  apply dateText_inj hd hd'
  obtain ⟨hyear, hrest⟩ := List.append_inj h (by simp)
  obtain ⟨hmonth, hday⟩ := List.append_inj hrest (by simp)
  unfold TimeText.dateText
  simp only [hyear, hmonth, hday]

theorem compactClock_inj {s s' : Nat} (hs : s < TimeText.secondsOfDay)
    (hs' : s' < TimeText.secondsOfDay) (h : compactClock s = compactClock s') : s = s' := by
  apply clockText_inj hs hs'
  obtain ⟨hhour, hrest⟩ := List.append_inj h (by simp)
  obtain ⟨hminute, hsecond⟩ := List.append_inj hrest (by simp)
  unfold TimeText.clockText
  simp only [hhour, hminute, hsecond]

@[simp] theorem length_compactDate (day : Nat) : (compactDate day).length = 8 := by
  simp [compactDate]

@[simp] theorem length_compactClock (second : Nat) : (compactClock second).length = 6 := by
  simp [compactClock]

/-- The text holds the time to the second. -/
theorem amzDate_inj {t t' : DateTime} (ht : t.FourDigits) (ht' : t'.FourDigits)
    (h : t.amzDate = t'.amzDate) : t.second = t'.second := by
  have hday : ∀ {t : DateTime}, t.FourDigits →
      t.second / TimeText.secondsOfDay < TimeText.daysBeforeYear 10000 := by
    intro t ht
    obtain ⟨hpos, hlt⟩ := ht
    have hlt : t.sinceZero.toNat < TimeText.limit := by omega
    exact Nat.div_lt_of_lt_mul (Nat.div_lt_of_lt_mul (by
      rwa [TimeText.limit, Nat.mul_comm, Nat.mul_comm (TimeText.daysBeforeYear 10000)] at hlt))
  have hclock : ∀ s, s % TimeText.secondsOfDay < TimeText.secondsOfDay := fun s =>
    Nat.mod_lt _ (by decide)
  obtain ⟨hdate, hrest⟩ := List.append_inj (String.ofList_injective h) (by simp)
  obtain ⟨htime, -⟩ := List.append_inj (List.cons.inj hrest).2 (by simp)
  rw [← Nat.div_add_mod t.second TimeText.secondsOfDay,
    ← Nat.div_add_mod t'.second TimeText.secondsOfDay,
    compactDate_inj (hday ht) (hday ht') hdate, compactClock_inj (hclock _) (hclock _) htime]

/-! ## Requests -/

/-- SHA-256, and HMAC over it: the key, then the message. -/
structure Hashes where
  sha256 : List UInt8 → List UInt8
  hmac : List UInt8 → List UInt8 → List UInt8

/-- The endpoint as it is parsed: an HTTP(S) URL without user, query and fragment. No `port` is
the default one of the scheme. -/
structure Endpoint where
  scheme : String
  host : String
  port : Option Nat
  path : String
  host_line : '\n' ∉ host.toList

/-- mirrors apps/server/src/object_store.rs:11-19 -/
structure ObjectStore where
  endpoint : Endpoint
  bucket : String
  region : String
  accessKey : String
  secretKey : String

/-- The parameters of `presign`. -/
structure ObjectRequest where
  method : String
  key : String
  expiresSeconds : Nat
  requiredHeaders : List (String × String)

/-- mirrors apps/server/src/object_store.rs:34-38 -/
structure PresignedRequest where
  url : String
  requiredHeaders : List (String × String)

/-- `Url::host_str` and `Url::port`. -/
def Endpoint.hostPort (e : Endpoint) : String :=
  match e.port with
  | some port => e.host ++ ":" ++ port.repr
  | none => e.host

/-- `path.trim_end_matches('/')`. -/
def Endpoint.basePath (e : Endpoint) : String :=
  String.ofList (e.path.toList.reverse.dropWhile (· == '/')).reverse

section
variable (s : ObjectStore)

/-- `{base_path}/{bucket}/{key}`. -/
def ObjectStore.objectPath (key : String) : String :=
  s.endpoint.basePath ++ "/" ++ s.bucket ++ "/" ++ key

def ObjectStore.canonicalUri (key : String) : String := Percent.encodePath (s.objectPath key)

def ObjectStore.scope (now : DateTime) : String := now.date ++ "/" ++ s.region ++ "/s3/aws4_request"

/-- The names of the headers that are signed. -/
def signedHeaders (headers : List (String × String)) : String :=
  Text.join ";" ((headers.map (·.1) ++ ["host"]).insertionSort (· ≤ ·))

/-- The query before it is sorted by name. -/
def ObjectStore.queryPairs (r : ObjectRequest) (now : DateTime) : List (String × String) :=
  [("X-Amz-Algorithm", "AWS4-HMAC-SHA256"),
    ("X-Amz-Credential", s.accessKey ++ "/" ++ s.scope now),
    ("X-Amz-Date", now.amzDate),
    ("X-Amz-Expires", r.expiresSeconds.repr),
    ("X-Amz-SignedHeaders", signedHeaders r.requiredHeaders)]

def ObjectStore.canonicalQuery (r : ObjectRequest) (now : DateTime) : String :=
  Percent.query ((s.queryPairs r now).insertionSort fun left right => left.1 ≤ right.1)

/-- `name:value`, and the end of the line. -/
def headerLine (header : String × String) : String :=
  Text.toAsciiLowercase header.1 ++ ":" ++ Text.trim header.2 ++ "\n"

def ObjectStore.canonicalLines (headers : List (String × String)) : List String :=
  (headers.map headerLine ++ ["host:" ++ s.endpoint.hostPort ++ "\n"]).insertionSort (· ≤ ·)

def ObjectStore.canonicalRequest (r : ObjectRequest) (now : DateTime) : String :=
  r.method ++ "\n" ++ s.canonicalUri r.key ++ "\n" ++ s.canonicalQuery r now ++ "\n" ++
    Text.join "" (s.canonicalLines r.requiredHeaders) ++ "\n" ++ signedHeaders r.requiredHeaders ++
    "\nUNSIGNED-PAYLOAD"

variable (h : Hashes)

def ObjectStore.stringToSign (r : ObjectRequest) (now : DateTime) : String :=
  "AWS4-HMAC-SHA256\n" ++ now.amzDate ++ "\n" ++ s.scope now ++ "\n" ++
    Text.toHex (h.sha256 (Text.bytes (s.canonicalRequest r now)))

/-- The key of a day, a region and a service. -/
def ObjectStore.signingKey (now : DateTime) : List UInt8 :=
  let dateKey := h.hmac (Text.bytes ("AWS4" ++ s.secretKey)) (Text.bytes now.date)
  let regionKey := h.hmac dateKey (Text.bytes s.region)
  let serviceKey := h.hmac regionKey (Text.bytes "s3")
  h.hmac serviceKey (Text.bytes "aws4_request")

def ObjectStore.signature (r : ObjectRequest) (now : DateTime) : String :=
  Text.toHex (h.hmac (s.signingKey h now) (Text.bytes (s.stringToSign h r now)))

/-- `none`: an unsafe key, or an expiry out of range.
mirrors apps/server/src/object_store.rs:197-283 -/
def ObjectStore.presign (r : ObjectRequest) (now : DateTime) : Option PresignedRequest :=
  if safeKey r.key = false then none
  else if r.expiresSeconds = 0 ∨ 604800 < r.expiresSeconds then none
  else some {
    url := s.endpoint.scheme ++ "://" ++ s.endpoint.hostPort ++ s.canonicalUri r.key ++ "?" ++
      s.canonicalQuery r now ++ "&X-Amz-Signature=" ++ s.signature h r now
    requiredHeaders := r.requiredHeaders.insertionSort fun left right => left.1 ≤ right.1 }

end

/-! ## What is signed -/

/-- A lower-case name and a value on one line, without white space around it. -/
structure CleanHeader (header : String × String) : Prop where
  lower : Text.toAsciiLowercase header.1 = header.1
  colon : ':' ∉ header.1.toList
  name_line : '\n' ∉ header.1.toList
  trimmed : Text.trim header.2 = header.2
  value_line : '\n' ∉ header.2.toList

structure ObjectRequest.Clean (r : ObjectRequest) : Prop where
  method_line : '\n' ∉ r.method.toList
  headers : ∀ header ∈ r.requiredHeaders, CleanHeader header

/-- The header of a line. -/
def headerOf (line : String) : String × String :=
  let name := line.toList.takeWhile (· != ':')
  (String.ofList name, String.ofList (line.toList.drop (name.length + 1)).dropLast)

theorem CleanHeader.line {header : String × String} (h : CleanHeader header) :
    (headerLine header).toList = header.1.toList ++ ':' :: (header.2.toList ++ ['\n']) := by
  rw [headerLine, h.lower, h.trimmed]
  simp only [String.toList_append, List.append_assoc]
  rfl

theorem headerOf_headerLine {header : String × String} (h : CleanHeader header) :
    headerOf (headerLine header) = header := by
  have hname : (header.1.toList ++ ':' :: (header.2.toList ++ ['\n'])).takeWhile (· != ':') =
      header.1.toList := by
    rw [List.takeWhile_append_of_pos, List.takeWhile_cons_of_neg (by simp), List.append_nil]
    intro c hc
    exact bne_iff_ne.mpr fun heq => h.colon (heq ▸ hc)
  have hdrop : (header.1.toList ++ ':' :: (header.2.toList ++ ['\n'])).drop
      (header.1.toList.length + 1) = header.2.toList ++ ['\n'] := by
    rw [List.drop_append]
    simp
  unfold headerOf
  dsimp only
  rw [h.line, hname, hdrop, List.dropLast_concat, String.ofList_toList, String.ofList_toList]

section
variable {s : ObjectStore} {r r' : ObjectRequest} {now now' : DateTime}

theorem newline_not_repr (n : Nat) : '\n' ∉ n.repr.toList := by
  rw [Nat.toList_repr]
  intro hc
  have := Nat.isDigit_of_mem_toDigits (by decide) (by decide) hc
  exact absurd this (by decide)

theorem Endpoint.hostPort_line (e : Endpoint) : '\n' ∉ e.hostPort.toList := by
  unfold Endpoint.hostPort
  split
  · simp only [String.toList_append, List.mem_append, not_or]
    exact ⟨⟨e.host_line, by decide⟩, newline_not_repr _⟩
  · exact e.host_line

/-- Every line of the headers ends in the only line break it has. -/
theorem canonicalLines_lines {headers : List (String × String)}
    (h : ∀ header ∈ headers, CleanHeader header) :
    ∀ line ∈ s.canonicalLines headers,
      '\n' ∉ line.toList.dropLast ∧ line.toList = line.toList.dropLast ++ ['\n'] := by
  have hend : ∀ text : List Char, '\n' ∉ text → ∀ line : String, line.toList = text ++ ['\n'] →
      '\n' ∉ line.toList.dropLast ∧ line.toList = line.toList.dropLast ++ ['\n'] := by
    intro text htext line hline
    rw [hline, List.dropLast_concat]
    exact ⟨htext, rfl⟩
  intro line hline
  rcases List.mem_append.mp ((List.mem_insertionSort _).mp hline) with hline | hline
  · obtain ⟨header, hheader, rfl⟩ := List.mem_map.mp hline
    have hclean := h header hheader
    refine hend (header.1.toList ++ ':' :: header.2.toList) ?_ _ ?_
    · simp only [List.mem_append, List.mem_cons, not_or]
      exact ⟨hclean.name_line, by decide, hclean.value_line⟩
    · rw [hclean.line]
      simp
  · obtain rfl := List.mem_singleton.mp hline
    refine hend ("host:".toList ++ s.endpoint.hostPort.toList) ?_ _ ?_
    · rw [List.mem_append, not_or]
      exact ⟨by decide, s.endpoint.hostPort_line⟩
    · rw [String.toList_append, String.toList_append]
      rfl

theorem join_empty (pieces : List String) :
    (Text.join "" pieces).toList = pieces.flatMap String.toList := by
  induction pieces with
  | nil => rfl
  | cons piece pieces ih =>
    cases pieces with
    | nil => simp [Text.join]
    | cons next pieces =>
      rw [Text.join, String.toList_append, String.toList_append, ih, List.flatMap_cons]
      · simp
      · exact List.cons_ne_nil _ _

theorem signedHeaders_line {headers : List (String × String)}
    (h : ∀ header ∈ headers, CleanHeader header) : '\n' ∉ (signedHeaders headers).toList := by
  refine Percent.not_mem_join (by decide) ?_
  intro name hname
  rcases List.mem_append.mp ((List.mem_insertionSort _).mp hname) with hname | hname
  · obtain ⟨header, hheader, rfl⟩ := List.mem_map.mp hname
    exact (h header hheader).name_line
  · obtain rfl := List.mem_singleton.mp hname
    decide

theorem canonicalUri_line (s : ObjectStore) (key : String) :
    '\n' ∉ (s.canonicalUri key).toList := by
  intro hc
  rcases Percent.joined_encoded _ _ hc with hc | hc <;> exact absurd hc (by decide)

theorem canonicalQuery_line (s : ObjectStore) (r : ObjectRequest) (now : DateTime) :
    '\n' ∉ (s.canonicalQuery r now).toList :=
  Percent.not_mem_query (by decide) (by decide) (by decide) _

/-- The lines of the canonical request. -/
theorem split_canonicalRequest (s : ObjectStore) (hr : r.Clean) (now : DateTime) :
    Text.split '\n' (s.canonicalRequest r now).toList =
      [r.method.toList, (s.canonicalUri r.key).toList, (s.canonicalQuery r now).toList] ++
        ((s.canonicalLines r.requiredHeaders).map (·.toList.dropLast) ++
          [[], (signedHeaders r.requiredHeaders).toList, "UNSIGNED-PAYLOAD".toList]) := by
  have hlines := canonicalLines_lines (s := s) hr.headers
  have hflat : (s.canonicalLines r.requiredHeaders).flatMap String.toList =
      ((s.canonicalLines r.requiredHeaders).map (·.toList.dropLast)).flatMap fun line =>
        line ++ ['\n'] := by
    rw [List.flatMap_map]
    exact List.flatMap_congr fun line hline => (hlines line hline).2
  have hbreak : "\n".toList = ['\n'] := rfl
  have hend : "\nUNSIGNED-PAYLOAD".toList = '\n' :: "UNSIGNED-PAYLOAD".toList := rfl
  rw [ObjectStore.canonicalRequest]
  simp only [String.toList_append, join_empty, hflat, hbreak, hend, List.append_assoc,
    List.cons_append, List.nil_append]
  rw [Text.split_append hr.method_line, Text.split_append (canonicalUri_line s r.key),
    Text.split_append (canonicalQuery_line s r now),
    Percent.split_lines, ← List.nil_append ('\n' :: _), Text.split_append List.not_mem_nil,
    Text.split_append (signedHeaders_line hr.headers), Percent.split_piece (by decide)]
  intro line hline
  obtain ⟨text, htext, rfl⟩ := List.mem_map.mp hline
  exact (hlines text htext).1

theorem sorted_queryPairs (s : ObjectStore) (r : ObjectRequest) (now : DateTime) :
    (s.queryPairs r now).insertionSort (fun left right => left.1 ≤ right.1) =
      s.queryPairs r now := by
  apply List.Pairwise.insertionSort_eq
  simp only [ObjectStore.queryPairs, List.pairwise_cons, List.forall_mem_cons]
  decide

theorem canonicalUri_inj {key key' : String} (h : s.canonicalUri key = s.canonicalUri key') :
    key = key' := by
  have hpath := congrArg String.toList (Percent.encodePath_injective h)
  simp only [ObjectStore.objectPath, String.toList_append] at hpath
  exact String.toList_injective (List.append_cancel_left hpath)

theorem repr_inj {m n : Nat} (h : m.repr = n.repr) : m = n := by
  have hdigits := congrArg String.toList h
  rw [Nat.toList_repr, Nat.toList_repr] at hdigits
  rw [← @Nat.ofDigitChars_ten_toDigits m, hdigits, Nat.ofDigitChars_ten_toDigits]

theorem canonicalQuery_inj (h : s.canonicalQuery r now = s.canonicalQuery r' now') :
    now.amzDate = now'.amzDate ∧ r.expiresSeconds = r'.expiresSeconds := by
  rw [ObjectStore.canonicalQuery, ObjectStore.canonicalQuery, sorted_queryPairs,
    sorted_queryPairs] at h
  have hpairs := Percent.query_injective (List.cons_ne_nil _ _) (List.cons_ne_nil _ _) h
  simp only [List.cons.injEq, Prod.mk.injEq, true_and, and_true] at hpairs
  exact ⟨hpairs.2.1, repr_inj hpairs.2.2.1⟩

theorem canonicalLines_inj {headers headers' : List (String × String)}
    (hclean : ∀ header ∈ headers, CleanHeader header)
    (hclean' : ∀ header ∈ headers', CleanHeader header)
    (h : s.canonicalLines headers = s.canonicalLines headers') : headers.Perm headers' := by
  have hread : ∀ {headers : List (String × String)}, (∀ header ∈ headers, CleanHeader header) →
      (headers.map headerLine).map headerOf = headers := by
    intro headers hclean
    rw [List.map_map]
    exact (List.map_congr_left fun header hheader =>
      headerOf_headerLine (hclean header hheader)).trans (List.map_id _)
  have hperm := (List.perm_insertionSort (· ≤ ·) _).symm.trans
    ((List.Perm.of_eq h).trans (List.perm_insertionSort (· ≤ ·) _))
  have hheaders := ((List.perm_append_right_iff _).mp hperm).map headerOf
  rwa [hread hclean, hread hclean'] at hheaders

/-- **The canonical request determines what is asked**, up to the order of the headers. -/
theorem canonicalRequest_inj (hr : r.Clean) (hr' : r'.Clean) (hnow : now.FourDigits)
    (hnow' : now'.FourDigits) (h : s.canonicalRequest r now = s.canonicalRequest r' now') :
    r.method = r'.method ∧ r.key = r'.key ∧ r.expiresSeconds = r'.expiresSeconds ∧
      now.second = now'.second ∧ r.requiredHeaders.Perm r'.requiredHeaders := by
  have hsplit := split_canonicalRequest s hr now
  rw [h, split_canonicalRequest s hr' now'] at hsplit
  obtain ⟨hfirst, hrest⟩ := List.append_inj hsplit.symm (by simp)
  obtain ⟨hlines, -⟩ := List.append_inj' hrest (by simp)
  simp only [List.cons.injEq, and_true] at hfirst
  obtain ⟨hmethod, huri, hquery⟩ := hfirst
  obtain ⟨hdate, hexpires⟩ := canonicalQuery_inj (String.toList_injective hquery)
  have hchars : ∀ {r : ObjectRequest}, r.Clean →
      (s.canonicalLines r.requiredHeaders).map String.toList =
        ((s.canonicalLines r.requiredHeaders).map (·.toList.dropLast)).map (· ++ ['\n']) := by
    intro r hr
    rw [List.map_map]
    exact List.map_congr_left fun line hline => (canonicalLines_lines hr.headers line hline).2
  have hsame : s.canonicalLines r.requiredHeaders = s.canonicalLines r'.requiredHeaders := by
    apply List.map_injective_iff.mpr fun _ _ => String.toList_injective
    rw [hchars hr, hchars hr', hlines]
  exact ⟨String.toList_injective hmethod, canonicalUri_inj (String.toList_injective huri),
    hexpires, amzDate_inj hnow hnow' hdate, canonicalLines_inj hr.headers hr'.headers hsame⟩

/-- The order in which the headers are given makes no difference. -/
theorem canonicalRequest_congr (hmethod : r.method = r'.method) (hkey : r.key = r'.key)
    (hexpires : r.expiresSeconds = r'.expiresSeconds) (hnow : now.second = now'.second)
    (hheaders : r.requiredHeaders.Perm r'.requiredHeaders) :
    s.canonicalRequest r now = s.canonicalRequest r' now' := by
  have hsort : ∀ {l l' : List String}, l.Perm l' →
      l.insertionSort (· ≤ ·) = l'.insertionSort (· ≤ ·) := by
    intro l l' hperm
    exact ((List.perm_insertionSort _ _).trans (hperm.trans
      (List.perm_insertionSort _ _).symm)).eq_of_pairwise'
        (List.pairwise_insertionSort _ _) (List.pairwise_insertionSort _ _)
  have hnames : signedHeaders r.requiredHeaders = signedHeaders r'.requiredHeaders := by
    unfold signedHeaders
    rw [hsort ((hheaders.map _).append_right _)]
  have hlines : s.canonicalLines r.requiredHeaders = s.canonicalLines r'.requiredHeaders :=
    hsort ((hheaders.map _).append_right _)
  have hquery : s.canonicalQuery r now = s.canonicalQuery r' now' := by
    unfold ObjectStore.canonicalQuery ObjectStore.queryPairs ObjectStore.scope DateTime.date
      DateTime.amzDate
    rw [hnow, hexpires, hnames]
  unfold ObjectStore.canonicalRequest
  rw [hmethod, hkey, hquery, hlines, hnames]

theorem date_congr (h : now.second = now'.second) : now.date = now'.date := by
  rw [DateTime.date, DateTime.date, h]

theorem amzDate_congr (h : now.second = now'.second) : now.amzDate = now'.amzDate := by
  rw [DateTime.amzDate, DateTime.amzDate, h]

@[simp] theorem length_amzDate (t : DateTime) : t.amzDate.toList.length = 16 := by
  simp [DateTime.amzDate]

theorem toList_lines (a b c d e f : String) : (a ++ b ++ c ++ d ++ e ++ f).toList =
    a.toList ++ (b.toList ++ (c.toList ++ (d.toList ++ (e.toList ++ f.toList)))) := by
  simp only [String.toList_append, List.append_assoc]

/-- The text that is signed determines what is asked, when the hash tells the two requests
apart. -/
theorem stringToSign_inj {h : Hashes} (hr : r.Clean) (hr' : r'.Clean) (hnow : now.FourDigits)
    (hnow' : now'.FourDigits)
    (hapart : h.sha256 (Text.bytes (s.canonicalRequest r now)) =
      h.sha256 (Text.bytes (s.canonicalRequest r' now')) →
        s.canonicalRequest r now = s.canonicalRequest r' now')
    (hsame : s.stringToSign h r now = s.stringToSign h r' now') :
    r.method = r'.method ∧ r.key = r'.key ∧ r.expiresSeconds = r'.expiresSeconds ∧
      now.second = now'.second ∧ r.requiredHeaders.Perm r'.requiredHeaders := by
  have htext : ∀ r now, (s.stringToSign h r now).toList = "AWS4-HMAC-SHA256\n".toList ++
      (now.amzDate.toList ++ ("\n".toList ++ ((s.scope now).toList ++ ("\n".toList ++
        (Text.toHex (h.sha256 (Text.bytes (s.canonicalRequest r now)))).toList)))) := by
    intro r now
    unfold ObjectStore.stringToSign
    exact toList_lines _ _ _ _ _ _
  have hchars := htext r now
  rw [hsame, htext] at hchars
  have hlength : now.amzDate.toList.length = now'.amzDate.toList.length := by
    rw [length_amzDate, length_amzDate]
  have htail := List.append_cancel_left hchars.symm
  obtain ⟨hdate, hrest⟩ := List.append_inj htail hlength
  have hsecond := amzDate_inj hnow hnow' (String.toList_injective hdate)
  rw [show s.scope now = s.scope now' from by
    rw [ObjectStore.scope, ObjectStore.scope, date_congr hsecond]] at hrest
  have hhash := List.append_cancel_left (List.append_cancel_left
    (List.append_cancel_left hrest))
  exact canonicalRequest_inj hr hr' hnow hnow'
    (hapart (Text.toHex_injective (String.toList_injective hhash)))

theorem stringToSign_congr {h : Hashes} (hnow : now.second = now'.second)
    (hrequest : s.canonicalRequest r now = s.canonicalRequest r' now') :
    s.stringToSign h r now = s.stringToSign h r' now' := by
  unfold ObjectStore.stringToSign ObjectStore.scope
  rw [amzDate_congr hnow, date_congr hnow, hrequest]

end

/-! ## What the server signs -/

/-- mirrors apps/server/src/object_store.rs:67-79 -/
def ObjectRequest.put (key mimeType : String) (sha256 : Option String) : ObjectRequest where
  method := "PUT"
  key := key
  expiresSeconds := 600
  requiredHeaders := ("content-type", mimeType) ::
    sha256.toList.map fun sha256 => ("x-amz-meta-sha256", sha256)

/-- mirrors apps/server/src/object_store.rs:81-83 -/
def ObjectRequest.get (key : String) : ObjectRequest := ⟨"GET", key, 600, []⟩

/-- mirrors apps/server/src/object_store.rs:93 -/
def ObjectRequest.head (key : String) : ObjectRequest := ⟨"HEAD", key, 60, []⟩

/-- mirrors apps/server/src/object_store.rs:154 -/
def ObjectRequest.delete (key : String) : ObjectRequest := ⟨"DELETE", key, 60, []⟩

/-- What the server does with the object of an attachment. -/
inductive ObjectUse where
  | put | get | head | delete
  deriving DecidableEq

def ObjectUse.request (a : Attachment) : ObjectUse → ObjectRequest
  | .put => .put a.storageKey a.mimeType a.sha256
  | .get => .get a.storageKey
  | .head => .head a.storageKey
  | .delete => .delete a.storageKey

/-- The metadata that goes into headers has no white space. -/
structure Attachment.Signable (a : Attachment) : Prop where
  mime : ∀ c ∈ a.mimeType.toList, Text.isWhitespace c = false
  sha256 : ∀ sha256, a.sha256 = some sha256 → ∀ c ∈ sha256.toList, Text.isWhitespace c = false

def AllSignable (w : World) : Prop :=
  ∀ id p, w.attachments.get id = some p → p.attachment.Signable

theorem lowerHex_space {c : Char} (h : Text.isAsciiHexdigit c = true) :
    Text.isWhitespace (Text.lowerChar c) = false := by
  have hsmall : c.toNat < 128 := by
    simp [Text.isAsciiHexdigit, Text.isAsciiDigit] at h
    omega
  have hall : ∀ n : Fin 128, Text.isAsciiHexdigit (Char.ofNat n.val) = true →
      Text.isWhitespace (Text.lowerChar (Char.ofNat n.val)) = false := by decide +kernel
  have := hall ⟨c.toNat, hsmall⟩
  rw [Char.ofNat_toNat] at this
  exact this h

/-- What is validated can be signed. -/
theorem validated_signable {fileName mimeType : String} {byteSize : Nat} {sha256 : Option String}
    (h : validateAttachmentMetadata fileName mimeType byteSize sha256 = .ok ()) :
    (∀ c ∈ (Text.toAsciiLowercase (Text.trim mimeType)).toList, Text.isWhitespace c = false) ∧
      ∀ value, sha256.map Text.toAsciiLowercase = some value →
        ∀ c ∈ value.toList, Text.isWhitespace c = false := by
  unfold validateAttachmentMetadata at h
  dsimp only at h
  generalize hmaximum : ite (Text.startsWith (Text.toAsciiLowercase (Text.trim mimeType)) "image/" ∨
    Text.startsWith (Text.toAsciiLowercase (Text.trim mimeType)) "audio/") _ _ = maximum at h
  split at h
  · cases h
  split at h
  · cases h
  split at h
  · cases h
  split at h
  · cases h
  rename_i hmime hhash
  simp only [not_or] at hmime
  refine ⟨fun c hc => ?_, fun value hvalue c hc => ?_⟩
  · cases hspace : Text.isWhitespace c with
    | false => rfl
    | true => exact absurd (List.any_eq_true.mpr ⟨c, hc, hspace⟩) hmime.2.2
  · obtain ⟨hash, rfl, rfl⟩ := Option.map_eq_some_iff.mp hvalue
    simp only [Option.any_some, Bool.or_eq_true, not_or, Bool.not_eq_true, Bool.not_eq_false',
      List.all_eq_true] at hhash
    rw [Text.toAsciiLowercase, String.toList_ofList] at hc
    obtain ⟨d, hd, rfl⟩ := List.mem_map.mp hc
    exact lowerHex_space (hhash.2 d hd)

section
variable {env : Env} {w w' : World}

theorem AllSignable.step {op : Op} (hw : AllSignable w) (hr : (op.run env).Runs w () w') :
    AllSignable w' := by
  intro id p hget
  cases Op.attached hr with
  | same h => exact hw id p (h ▸ hget)
  | authorized hdraws hid hkey havailable h =>
    simp only [Op.run, Tx.runs_void, IamRust.authorizeAttachment, check_bind_runs,
      Tx.runs_bind (t := newUuid env), newUuid_runs, update_bind_runs, Tx.runs_pure] at hr
    obtain ⟨_, hvalid, drawn, _, ⟨rfl, rfl⟩, -, rfl⟩ := hr
    obtain ⟨hmime, hhash⟩ := validated_signable hvalid
    change (Map.insert _ _ _).get id = some p at hget
    rw [Map.get_insert] at hget
    split at hget
    · cases hget
      exact ⟨hmime, hhash⟩
    · exact hw id p hget
  | completed hold _ h =>
    have hsignable := hw _ _ hold
    rw [h, Map.get_insert] at hget
    split at hget
    · cases hget
      exact hsignable
    · exact hw id p hget
  | quarantined hold _ h =>
    have hsignable := hw _ _ hold
    rw [h, Map.get_insert] at hget
    split at hget
    · cases hget
      exact hsignable
    · exact hw id p hget
  | collected h => exact hw id p (Map.get_of_retain (h ▸ hget))

theorem signable_inductive : (service env).Inductive AllSignable where
  init w h := by
    subst h
    intro id p hget
    cases hget
  step _ _ _ hw hr := hw.step hr

theorem cleanHeader_of_space {name value : String} (hlower : Text.toAsciiLowercase name = name)
    (hcolon : ':' ∉ name.toList) (hline : '\n' ∉ name.toList)
    (h : ∀ c ∈ value.toList, Text.isWhitespace c = false) : CleanHeader (name, value) :=
  ⟨hlower, hcolon, hline, trim_of_no_space h, fun hc => absurd (h _ hc) (by decide)⟩

theorem ObjectUse.method_line (use : ObjectUse) (a : Attachment) :
    '\n' ∉ (use.request a).method.toList := by
  cases use
  · exact of_decide_eq_true (p := '\n' ∉ "PUT".toList) rfl
  · exact of_decide_eq_true (p := '\n' ∉ "GET".toList) rfl
  · exact of_decide_eq_true (p := '\n' ∉ "HEAD".toList) rfl
  · exact of_decide_eq_true (p := '\n' ∉ "DELETE".toList) rfl

theorem Attachment.Signable.clean {a : Attachment} (h : a.Signable) (use : ObjectUse) :
    (use.request a).Clean := by
  refine ⟨use.method_line a, fun header hheader => ?_⟩
  cases use with
  | put =>
    rcases List.mem_cons.mp hheader with rfl | hheader
    · exact cleanHeader_of_space (by decide +kernel) (by decide) (by decide) h.mime
    · obtain ⟨value, hvalue, rfl⟩ := List.mem_map.mp hheader
      exact cleanHeader_of_space (by decide +kernel) (by decide) (by decide)
        (h.sha256 value (Option.mem_toList.mp hvalue))
  | get => exact absurd hheader List.not_mem_nil
  | head => exact absurd hheader List.not_mem_nil
  | delete => exact absurd hheader List.not_mem_nil

theorem ObjectUse.request_key (use : ObjectUse) (a : Attachment) :
    (use.request a).key = a.storageKey := by
  cases use <;> rfl

theorem ObjectUse.expires (use : ObjectUse) (a : Attachment) :
    ¬ ((use.request a).expiresSeconds = 0 ∨ 604800 < (use.request a).expiresSeconds) := by
  cases use
  · exact of_decide_eq_false rfl
  · exact of_decide_eq_false rfl
  · exact of_decide_eq_false rfl
  · exact of_decide_eq_false rfl

theorem presign_safe {s : ObjectStore} {h : Hashes} {r : ObjectRequest} {now : DateTime}
    (hkey : safeKey r.key = true)
    (hexpires : ¬ (r.expiresSeconds = 0 ∨ 604800 < r.expiresSeconds)) :
    ∃ presigned query, s.presign h r now = some presigned ∧
      presigned.url = s.endpoint.scheme ++ "://" ++ s.endpoint.hostPort ++ s.canonicalUri r.key ++
        "?" ++ query ∧
      presigned.requiredHeaders =
        r.requiredHeaders.insertionSort fun left right => left.1 ≤ right.1 := by
  rw [ObjectStore.presign, hkey, if_neg (by decide), if_neg hexpires]
  refine ⟨_, s.canonicalQuery r now ++ "&X-Amz-Signature=" ++ s.signature h r now, rfl, ?_, rfl⟩
  simp only [String.append_assoc]

/-- The headers are in order. -/
theorem ObjectUse.sorted_headers (use : ObjectUse) (a : Attachment) :
    ((use.request a).requiredHeaders.insertionSort fun left right => left.1 ≤ right.1) =
      (use.request a).requiredHeaders := by
  apply List.Pairwise.insertionSort_eq
  cases use with
  | put =>
    refine List.pairwise_cons.mpr ⟨fun header hheader => ?_, ?_⟩
    · obtain ⟨value, -, rfl⟩ := List.mem_map.mp hheader
      show "content-type" ≤ "x-amz-meta-sha256"
      decide
    · cases a.sha256 with
      | none => exact List.Pairwise.nil
      | some value => exact List.pairwise_singleton _ _
  | get => exact List.Pairwise.nil
  | head => exact List.Pairwise.nil
  | delete => exact List.Pairwise.nil

theorem ObjectUse.method_inj {use use' : ObjectUse} {a a' : Attachment}
    (h : (use.request a).method = (use'.request a').method) : use = use' := by
  cases use <;> cases use' <;> first | rfl | exact absurd h (by simp [ObjectUse.request,
    ObjectRequest.put, ObjectRequest.get, ObjectRequest.head, ObjectRequest.delete])

/-- There is no dot in the key of an attachment. -/
theorem PendingAttachment.Filed.safe {id : AttachmentId} {p : PendingAttachment}
    (h : p.Filed env w id) : safeKey p.attachment.storageKey = true := by
  have hdigits : ∀ u : Uuid, '.' ∉ (Uuid.toString u).toList := by
    intro u hdot
    have hplain : ∀ width n, '.' ∉ Text.hexDigits width n := by
      intro width
      induction width with
      | zero => exact fun _ => List.not_mem_nil
      | succ width ih =>
        intro n
        have hmod : Text.hexDigit (n % 16) = Text.hexDigit n := by simp [Text.hexDigit]
        have hall : ∀ k < 16, '.' ≠ Text.hexDigit k := by decide
        rw [Text.hexDigits, List.mem_append, not_or, List.mem_singleton, ← hmod]
        exact ⟨ih _, hall _ (Nat.mod_lt _ (by decide))⟩
    have hd := hplain 32 u
    rw [Uuid.toString, String.toList_ofList] at hdot
    generalize Text.hexDigits 32 u = d at hd hdot
    simp only [List.mem_append, List.mem_singleton, Char.reduceEq, or_false] at hdot
    rcases hdot with (((hdot | hdot) | hdot) | hdot) | hdot
    · exact hd (List.mem_of_mem_take hdot)
    · exact hd (List.mem_of_mem_drop (List.mem_of_mem_take hdot))
    · exact hd (List.mem_of_mem_drop (List.mem_of_mem_take hdot))
    · exact hd (List.mem_of_mem_drop (List.mem_of_mem_take hdot))
    · exact hd (List.mem_of_mem_drop hdot)
  have hdot : '.' ∉ p.attachment.storageKey.toList := by
    rw [h.key]
    simp only [String.toList_append, List.mem_append, not_or]
    exact ⟨⟨⟨by decide, hdigits _⟩, by decide⟩, hdigits _⟩
  have hne : p.attachment.storageKey.isEmpty = false := by
    rw [h.key, ← Bool.not_eq_true, String.isEmpty_iff]
    intro hempty
    have := congrArg (fun text => text.toList.length) hempty
    simp [String.toList_append] at this
  rw [safeKey, hne, Bool.not_false, Bool.true_and, Bool.not_eq_true', List.any_eq_false]
  intro pair hpair hdots
  exact hdot (beq_iff_eq.mp (Bool.and_eq_true_iff.mp hdots).1 ▸ (List.of_mem_zip hpair).1)

end

/-- **The signature binds what is signed.** In every store that is reached, the server gets a URL
for every use of every attachment; its path is read as the object's; and what is signed for two
uses is the same text exactly when it is the same use of the same attachment in the same
second. -/
theorem signatures_bind (env : Env) (hu : Function.Injective env.uuid) (w : World)
    (hfits : ∀ k < w.nextUuid, env.uuid k < 2 ^ 128) (hw : (service env).Reachable w)
    (s : ObjectStore) (h : Hashes) {id id' : AttachmentId} {p p' : PendingAttachment}
    (hget : w.attachments.get id = some p) (hget' : w.attachments.get id' = some p')
    (use use' : ObjectUse) {now now' : DateTime} (hnow : now.FourDigits)
    (hnow' : now'.FourDigits)
    (hapart : h.sha256 (Text.bytes (s.canonicalRequest (use.request p.attachment) now)) =
      h.sha256 (Text.bytes (s.canonicalRequest (use'.request p'.attachment) now')) →
        s.canonicalRequest (use.request p.attachment) now =
          s.canonicalRequest (use'.request p'.attachment) now') :
    (∃ presigned path query, s.presign h (use.request p.attachment) now = some presigned ∧
      presigned.url =
        s.endpoint.scheme ++ "://" ++ s.endpoint.hostPort ++ path ++ "?" ++ query ∧
      '?' ∉ path.toList ∧
      Percent.decode path.toList = Text.bytes (s.objectPath p.attachment.storageKey) ∧
      presigned.requiredHeaders = (use.request p.attachment).requiredHeaders) ∧
    (s.stringToSign h (use.request p.attachment) now =
        s.stringToSign h (use'.request p'.attachment) now' ↔
      use = use' ∧ id = id' ∧ now.second = now'.second) := by
  have hsignable := signable_inductive.reachable hw
  have hfiled := ((referenced_inductive hu).reachable hw).filed
  constructor
  · have hpath : '?' ∉ (s.canonicalUri p.attachment.storageKey).toList := by
      intro hc
      rcases Percent.joined_encoded _ _ hc with hc | hc <;> exact absurd hc (by decide)
    have hsafe := (hfiled id p hget).safe
    rw [← use.request_key] at hsafe
    obtain ⟨presigned, query, hsome, hurl, hheaders⟩ := presign_safe hsafe (use.expires _)
    rw [use.request_key] at hurl
    rw [use.sorted_headers] at hheaders
    exact ⟨presigned, _, query, hsome, hurl, hpath, Percent.decode_encodePath _, hheaders⟩
  · have hclean := (hsignable id p hget).clean use
    have hclean' := (hsignable id' p' hget').clean use'
    constructor
    · intro hsame
      obtain ⟨hmethod, hkey, -, hsecond, -⟩ :=
        stringToSign_inj hclean hclean' hnow hnow' hapart hsame
      rw [use.request_key, use'.request_key] at hkey
      exact ⟨ObjectUse.method_inj hmethod,
        (hfiled id p hget).key_inj hfits (hfiled id' p' hget') hkey, hsecond⟩
    · rintro ⟨rfl, rfl, hsecond⟩
      cases hget.symm.trans hget'
      exact stringToSign_congr hsecond
        (canonicalRequest_congr rfl rfl rfl hsecond (List.Perm.refl _))

/-- A local store. -/
def localStore : ObjectStore where
  endpoint := ⟨"http", "127.0.0.1", some 9000, "/", by decide⟩
  bucket := "iamrust-media"
  region := "us-east-1"
  accessKey := "access"
  secretKey := "do-not-leak"

/-- Hashes that keep the text. -/
def plainHashes : Hashes := ⟨id, fun _ message => message⟩

theorem plainHashes_inj (s t : String)
    (h : plainHashes.sha256 (Text.bytes s) = plainHashes.sha256 (Text.bytes t)) : s = t :=
  Text.bytes_injective h

/-- The URL with which Alice uploads her picture is not the one with which it is deleted. -/
theorem signatures_bind_picture : ∃ w p, (service Env.numbered).Reachable w ∧
    w.attachments.get 14 = some p ∧ p.attachment = alicePicture ∧
    (localStore.presign plainHashes (ObjectUse.put.request p.attachment) 0).isSome ∧
    localStore.stringToSign plainHashes (ObjectUse.put.request p.attachment) 0 ≠
      localStore.stringToSign plainHashes (ObjectUse.delete.request p.attachment) 0 := by
  obtain ⟨w, hw, hp⟩ := reaches Env.numbered (aliceAndBob ++
    [.authorizeAttachment 1 "cat.png" "image/png" 1 none 0])
    (fun w => decide (w.nextUuid < 2 ^ 64) &&
      (w.attachments.get 14).any fun p => decide (p.attachment = alicePicture)) (by decide +kernel)
  obtain ⟨hsmall, hp⟩ := Bool.and_eq_true_iff.mp hp
  obtain ⟨p, hget, hp⟩ := (Option.any_eq_true ..).mp hp
  have hfits : ∀ k < w.nextUuid, Env.numbered.uuid k < 2 ^ 128 := fun k hk => by
    have := of_decide_eq_true hsmall
    show k + 1 < 2 ^ 128
    omega
  have hsame : p.attachment = alicePicture := of_decide_eq_true hp
  have hzero : DateTime.FourDigits 0 := by decide +kernel
  have hbind := fun use => signatures_bind Env.numbered Env.numbered_injective w hfits
    (reachable_of_run hw) localStore plainHashes hget hget .put use hzero hzero
    (plainHashes_inj _ _)
  refine ⟨w, p, reachable_of_run hw, hget, hsame, ?_, ?_⟩
  · obtain ⟨presigned, -, -, hsome, -⟩ := (hbind .put).1
    exact Option.isSome_of_eq_some hsome
  · intro hsigned
    cases ((hbind .delete).2.mp hsigned).1

end IamRust
