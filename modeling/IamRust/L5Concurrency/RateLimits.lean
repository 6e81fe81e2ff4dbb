import IamRust.L0Core.FixedWindow
import IamRust.L0Core.Map
import Mathlib.Data.String.Basic

/-!
# Rate limits

The limiter keeps a bucket a key and is asked under a lock, so its calls are in
one order and their times do not decrease. Every call first drops the buckets
that are too old, whatever their key.

* `checks_visits`: a key is served by a fixed-window counter of its own.
* `rate_limits`: how many calls of a key are granted and when one is refused,
  whatever the calls of the other keys.
-/
namespace IamRust

open Core

/-- mirrors crates/protocol/src/lib.rs:15-31 -/
inductive ApiErrorCode where
  | validation | authenticationRequired | authenticationFailed | forbidden | notFound | conflict
  | rateLimited | payloadTooLarge | unsupportedMediaType | protocolMismatch | syncRequired
  | internal | serviceUnavailable
  deriving DecidableEq, Repr

/-- An answer that is not a success, less its correlation id.
mirrors apps/server/src/error.rs:7-11, crates/protocol/src/lib.rs:33-40 -/
structure AppError where
  status : Nat
  code : ApiErrorCode
  messageKey : String
  field : Option String
  retryable : Bool
  deriving DecidableEq, Repr

/-- mirrors apps/server/src/error.rs:34-42 -/
def AppError.rateLimited : AppError := ⟨429, .rateLimited, "error.rate_limited", none, true⟩

/-- mirrors apps/server/src/api.rs:175-179 -/
structure Bucket where
  startedAt : Nat
  count : UInt32
  deriving DecidableEq, Repr

abbrev RateLimiter := Map String Bucket

namespace RateLimiter

/-- mirrors apps/server/src/api.rs:203 -/
def kept (buckets : RateLimiter) (window now : Nat) : RateLimiter :=
  buckets.retain fun _ bucket => decide (now - bucket.startedAt ≤ window)

/-- The bucket a call is counted in.
mirrors apps/server/src/api.rs:204-213 -/
def bucket (buckets : RateLimiter) (key : String) (window now : Nat) : Bucket :=
  let bucket := (buckets.get key).getD ⟨now, 0⟩
  if now - bucket.startedAt > window then ⟨now, 0⟩ else bucket

/-- mirrors apps/server/src/api.rs:200-219 -/
def check (buckets : RateLimiter) (key : String) (max : UInt32) (window now : Nat) :
    Except AppError Unit × RateLimiter :=
  let buckets := buckets.kept window now
  let bucket := buckets.bucket key window now
  if bucket.count ≥ max then (.error .rateLimited, buckets.insert key bucket)
  else (.ok (), buckets.insert key { bucket with count := bucket.count + 1 })

end RateLimiter

/-- mirrors apps/server/src/api.rs:2227-2232 -/
def rateLimit (buckets : RateLimiter) (ip scope : String) (max : UInt32) (now : Nat) :
    Except AppError Unit × RateLimiter :=
  buckets.check (scope ++ ":" ++ ip) max 60000000000 now

/-- The scopes, with the maximum each is asked with.
mirrors apps/server/src/api.rs:681-1923 -/
def scopeMaxima : List (String × UInt32) :=
  [("register", 5), ("login", 10), ("qr-login-start", 12), ("qr-login-poll", 90),
    ("password-reset", 5), ("password-reset-confirm", 8), ("user-search", 60),
    ("translation", 30), ("transcription", 15), ("upload", 30)]

/-- The maximum of a key, read off its scope. -/
def keyMax (key : String) : UInt32 :=
  (scopeMaxima.lookup (String.ofList (key.toList.takeWhile (· ≠ ':')))).getD 0

/-- A key has one maximum, whatever the scopes it is asked under. -/
theorem rateLimit_eq {scope : String} {max : UInt32} (h : (scope, max) ∈ scopeMaxima)
    (buckets : RateLimiter) (ip : String) (now : Nat) :
    rateLimit buckets ip scope max now =
      buckets.check (scope ++ ":" ++ ip) (keyMax (scope ++ ":" ++ ip)) 60000000000 now := by
  have hall : scopeMaxima.all (fun x => decide (scopeMaxima.lookup x.1 = some x.2) &&
      x.1.toList.all (· ≠ ':')) = true := by
    decide
  have hscope := List.all_eq_true.mp hall _ h
  rw [Bool.and_eq_true, decide_eq_true_iff, List.all_eq_true] at hscope
  have hkey : keyMax (scope ++ ":" ++ ip) = max := by
    rw [keyMax, String.toList_append, String.toList_append, List.append_assoc,
      List.takeWhile_append_of_pos hscope.2]
    simp [hscope.1]
  rw [rateLimit, hkey]

/-! ## One call -/

def Bucket.window (b : Bucket) : Window := ⟨b.startedAt, b.count.toNat⟩

namespace RateLimiter

variable (buckets : RateLimiter) (key : String) (max : UInt32) (window now : Nat)

/-- The bucket `check` counts the call in. -/
def found : Bucket := (buckets.kept window now).bucket key window now

theorem get_kept (k : String) : (buckets.kept window now).get k =
    (buckets.get k).filter fun b => decide (now - b.startedAt ≤ window) := by
  rw [kept, Map.get_retain]

theorem found_window : (buckets.found key window now).window =
    Window.entered window now ((buckets.get key).map Bucket.window) := by
  rw [found, bucket, get_kept]
  cases buckets.get key with
  | none => simp [Window.entered, Bucket.window]
  | some b =>
    by_cases h : now - b.startedAt ≤ window
    · simp [Window.entered, Bucket.window, Option.filter, h, Nat.not_lt.mpr h]
    · simp [Window.entered, Bucket.window, Option.filter, h]

theorem check_eq {b : Bucket} (hb : buckets.found key window now = b) :
    buckets.check key max window now =
      if b.count < max then
        (.ok (), (buckets.kept window now).insert key { b with count := b.count + 1 })
      else (.error .rateLimited, (buckets.kept window now).insert key b) := by
  unfold found at hb
  simp only [check, hb, ge_iff_le]
  by_cases h : b.count < max
  · rw [if_neg (UInt32.not_le.mpr h), if_pos h]
  · rw [if_pos (UInt32.not_lt.mp h), if_neg h]

theorem check_answer : (buckets.check key max window now).1 =
    if (buckets.found key window now).count < max then .ok () else .error .rateLimited := by
  rw [check_eq _ _ _ _ _ rfl]
  split <;> rfl

theorem get_check_self : ((buckets.check key max window now).2.get key).map Bucket.window =
    some ((buckets.found key window now).window.left max.toNat) := by
  rw [check_eq _ _ _ _ _ rfl]
  split
  · next h =>
    have hlt := UInt32.lt_iff_toNat_lt.mp h
    have hmax := max.toNat_lt
    rw [Map.get_insert_self, Option.map_some, Bucket.window, Window.left, Bucket.window,
      if_pos hlt, UInt32.toNat_add, UInt32.toNat_one, Nat.mod_eq_of_lt (by omega)]
  · next h =>
    rw [Map.get_insert_self, Option.map_some, Window.left, Bucket.window,
      if_neg (fun hlt => h (UInt32.lt_iff_toNat_lt.mpr hlt))]

theorem get_check_ne {k : String} (h : k ≠ key) :
    (buckets.check key max window now).2.get k = (buckets.kept window now).get k := by
  rw [check_eq _ _ _ _ _ rfl]
  split <;> exact Map.get_insert_ne h

end RateLimiter

/-! ## Runs -/

structure CheckCall where
  key : String
  now : Nat
  deriving DecidableEq, Repr

/-- A call, the bucket it was counted in, as the call found or made it, and the answer. -/
structure Checked where
  call : CheckCall
  bucket : Bucket
  answer : Except AppError Unit

def Checked.granted (c : Checked) : Bool := c.answer.isOk

/-- The call as the counter of its key sees it. -/
def Checked.visit (c : Checked) : Window.Visit := ⟨c.call.now, c.bucket.window⟩

/-- One more call, after those so far and the buckets they left. -/
def serveCheck (max : String → UInt32) (window : Nat) (x : List Checked × RateLimiter)
    (call : CheckCall) : List Checked × RateLimiter :=
  (x.1 ++ [⟨call, x.2.found call.key window call.now,
    (x.2.check call.key (max call.key) window call.now).1⟩],
    (x.2.check call.key (max call.key) window call.now).2)

/-- Calls one after the other, each key with its own maximum. -/
def checks (max : String → UInt32) (window : Nat) (calls : List CheckCall) :
    List Checked × RateLimiter :=
  calls.foldl (serveCheck max window) ([], .empty)

/-- The calls of a key. -/
def callsOf (key : String) (calls : List CheckCall) : List CheckCall :=
  calls.filter (·.key = key)

def answersOf (key : String) (l : List Checked) : List Checked := l.filter (·.call.key = key)

variable {max : String → UInt32} {window : Nat}

theorem checks_concat (calls : List CheckCall) (call : CheckCall) :
    checks max window (calls ++ [call]) = serveCheck max window (checks max window calls) call := by
  simp only [checks, List.foldl_append, List.foldl_cons, List.foldl_nil]

/-- A call of another key leaves to a key what it would find later. -/
theorem RateLimiter.found_check_ne (buckets : RateLimiter) {key k : String} (h : k ≠ key)
    (limit : UInt32) {now later : Nat} (hle : now ≤ later) :
    ((buckets.check key limit window now).2.found k window later).window =
      (buckets.found k window later).window := by
  rw [found_window, found_window, get_check_ne _ _ _ _ _ h, get_kept]
  cases hb : buckets.get k with
  | none => rfl
  | some b =>
    by_cases hw : now - b.startedAt ≤ window
    · simp [Option.filter, hw]
    · have hlate : ¬ later - b.startedAt ≤ window := by omega
      simp [Option.filter, hw, Window.entered, Bucket.window, hlate]

/-- A key is served by a counter of its own: what it was answered so far, and what it would find. -/
theorem checks_visits (max : String → UInt32) (window : Nat) (key : String)
    {calls : List CheckCall}
    (h : calls.Pairwise (·.now ≤ ·.now)) :
    (answersOf key (checks max window calls).1).map Checked.visit =
      (Window.visits window (max key).toNat ((callsOf key calls).map CheckCall.now)).1 ∧
    ∀ later, (∀ call ∈ calls, call.now ≤ later) →
      ((checks max window calls).2.found key window later).window =
        Window.entered window later
          (Window.visits window (max key).toNat ((callsOf key calls).map CheckCall.now)).2 := by
  induction calls using List.reverseRecOn with
  | nil => exact ⟨rfl, fun later _ => RateLimiter.found_window _ _ _ _⟩
  | append_singleton calls call ih =>
    obtain ⟨hbefore, -, hnow⟩ := List.pairwise_append.mp h
    have hcall : ∀ c ∈ calls, c.now ≤ call.now := fun c hc => hnow c hc call (by simp)
    obtain ⟨hlog, hfound⟩ := ih hbefore
    rw [checks_concat]
    by_cases hkey : call.key = key
    · subst hkey
      have hcalls : callsOf call.key (calls ++ [call]) = callsOf call.key calls ++ [call] := by
        simp [callsOf]
      rw [hcalls, List.map_append, List.map_singleton, Window.visits_concat]
      refine ⟨?_, fun later _ => ?_⟩
      · simp only [answersOf] at hlog
        simp [answersOf, serveCheck, Window.visit, Checked.visit, hlog, hfound _ hcall]
      · rw [RateLimiter.found_window, serveCheck, RateLimiter.get_check_self, Window.visit,
          hfound _ hcall]
    · have hcalls : callsOf key (calls ++ [call]) = callsOf key calls := by simp [callsOf, hkey]
      rw [hcalls]
      refine ⟨?_, fun later hlater => ?_⟩
      · simp only [answersOf] at hlog
        simp [answersOf, serveCheck, hkey, hlog]
      · rw [serveCheck, RateLimiter.found_check_ne _ (Ne.symm hkey) _ (hlater call (by simp))]
        exact hfound later fun c hc => hlater c (by simp [hc])

/-! ## Bounds -/

/-- Each call is answered by what its bucket says. -/
theorem checks_answer {calls : List CheckCall} {c : Checked}
    (hc : c ∈ (checks max window calls).1) :
    c.answer = if c.bucket.count < max c.call.key then .ok () else .error .rateLimited := by
  induction calls using List.reverseRecOn with
  | nil => cases hc
  | append_singleton calls call ih =>
    rw [checks_concat, serveCheck, List.mem_append, List.mem_singleton] at hc
    rcases hc with hc | rfl
    · exact ih hc
    · exact RateLimiter.check_answer _ _ _ _ _

theorem Checked.granted_eq {calls : List CheckCall} {c : Checked}
    (hc : c ∈ (checks max window calls).1) :
    c.granted = c.visit.granted (max c.call.key).toNat := by
  rw [granted, checks_answer hc]
  unfold Window.Visit.granted visit Bucket.window
  split
  · next h => simpa [Except.isOk, Except.toBool] using UInt32.lt_iff_toNat_lt.mp h
  · next h =>
    have hle := UInt32.le_iff_toNat_le.mp (UInt32.not_lt.mp h)
    simpa [Except.isOk, Except.toBool] using hle

/-- How many calls of a key that meet `p` were granted. -/
def grants (key : String) (p : Checked → Bool) (l : List Checked) : Nat :=
  l.countP fun c => c.granted && (c.call.key = key && p c)

theorem grants_eq {calls : List CheckCall} {l : List Checked}
    (hl : ∀ c ∈ l, c ∈ (checks max window calls).1) (key : String) (p : Checked → Bool)
    (q : Window.Visit → Bool) (hq : ∀ c : Checked, p c = q c.visit) :
    grants key p l = ((answersOf key l).map Checked.visit).countP fun v =>
      v.granted (max key).toNat && q v := by
  rw [grants, answersOf, List.countP_map, List.countP_filter]
  refine List.countP_congr fun c hc => ?_
  rw [Checked.granted_eq (hl c hc), hq]
  by_cases hkey : c.call.key = key
  · subst hkey
    simp
  · simp [hkey]

/-- What the limiter promises of calls made one after the other: every call is answered, the
buckets of a key do not overlap, each counts the calls granted from it, and so on. -/
structure RateLimited (max : String → UInt32) (window : Nat) (calls : List CheckCall)
    (log : List Checked) : Prop where
  answered : log.map Checked.call = calls
  lifetime : ∀ c ∈ log,
    c.bucket.startedAt ≤ c.call.now ∧ c.call.now ≤ c.bucket.startedAt + window
  renewed : log.Pairwise fun a b => a.call.key = b.call.key →
    a.bucket.startedAt = b.bucket.startedAt ∨ a.bucket.startedAt + window < b.bucket.startedAt
  in_bucket : ∀ key start,
    grants key (fun c => c.bucket.startedAt = start) log ≤ (max key).toNat
  in_interval : ∀ key t,
    grants key (fun c => t ≤ c.call.now ∧ c.call.now ≤ t + window) log ≤ 2 * (max key).toNat
  refused : ∀ before c after, log = before ++ c :: after → c.granted = false →
    (max c.call.key).toNat ≤
      grants c.call.key (fun b => c.call.now ≤ b.call.now + window) before
  counted : ∀ before c after, log = before ++ c :: after → c.bucket.count.toNat =
    grants c.call.key (fun b => b.bucket.startedAt = c.bucket.startedAt) before
  no_overflow : ∀ c ∈ log, c.granted = true → c.bucket.count.toNat + 1 < UInt32.size
  alone : ∀ key, answersOf key log = (checks max window (callsOf key calls)).1

theorem checks_call (max : String → UInt32) (window : Nat) (calls : List CheckCall) :
    (checks max window calls).1.map Checked.call = calls := by
  induction calls using List.reverseRecOn with
  | nil => rfl
  | append_singleton calls call ih => simp [checks_concat, serveCheck, ih]

theorem visits_of (max : String → UInt32) (window : Nat) (key : String) {calls : List CheckCall}
    (h : calls.Pairwise (·.now ≤ ·.now)) :
    ∃ x, Window.Visited window (max key).toNat ((callsOf key calls).map CheckCall.now) x ∧
      (answersOf key (checks max window calls).1).map Checked.visit = x.1 := by
  have hsorted : ((callsOf key calls).map CheckCall.now).Pairwise (· ≤ ·) :=
    List.pairwise_map.mpr (h.sublist List.filter_sublist)
  exact ⟨_, Window.visited hsorted, (checks_visits max window key h).1⟩

theorem answersOf_append (key : String) (l l' : List Checked) :
    answersOf key (l ++ l') = answersOf key l ++ answersOf key l' := List.filter_append ..

theorem answersOf_cons (c : Checked) (l : List Checked) :
    answersOf c.call.key (c :: l) = c :: answersOf c.call.key l := by
  simp [answersOf]

/-- The call of a visit, when the key is known. -/
def answerOf (max : String → UInt32) (key : String) (v : Window.Visit) : Checked where
  call := ⟨key, v.time⟩
  bucket := ⟨v.window.start, UInt32.ofNat v.window.used⟩
  answer := if UInt32.ofNat v.window.used < max key then .ok () else .error .rateLimited

/-- The answers of a key are told by its visits. -/
theorem answersOf_eq (key : String) (calls : List CheckCall) :
    answersOf key (checks max window calls).1 =
      ((answersOf key (checks max window calls).1).map Checked.visit).map (answerOf max key) := by
  rw [List.map_map]
  conv_lhs => rw [← List.map_id (answersOf key (checks max window calls).1)]
  refine List.map_congr_left fun c hc => ?_
  obtain ⟨hc, hkey⟩ := List.mem_filter.mp hc
  have hanswer := checks_answer hc
  obtain ⟨⟨k, now⟩, ⟨startedAt, count⟩, answer⟩ := c
  obtain rfl : k = key := of_decide_eq_true hkey
  simp only [id, Function.comp, answerOf, Checked.visit, Bucket.window, UInt32.ofNat_toNat]
  exact congrArg _ hanswer

theorem rate_limits (max : String → UInt32) (window : Nat) (calls : List CheckCall)
    (h : calls.Pairwise (·.now ≤ ·.now)) :
    RateLimited max window calls (checks max window calls).1 where
  answered := checks_call max window calls
  lifetime c hc := by
    obtain ⟨x, hx, hlog⟩ := visits_of max window c.call.key h
    exact hx.within c.visit (hlog ▸ List.mem_map_of_mem (List.mem_filter.mpr ⟨hc, by simp⟩))
  renewed := by
    rw [List.pairwise_iff_forall_sublist]
    intro a b hsub hkey
    obtain ⟨x, hx, hlog⟩ := visits_of max window a.call.key h
    have hab := (hsub.filter (·.call.key = a.call.key)).map Checked.visit
    rw [← answersOf, ← answersOf, hlog, answersOf_cons, hkey, answersOf_cons] at hab
    exact List.pairwise_iff_forall_sublist.mp hx.ordered hab
  in_bucket key start := by
    obtain ⟨x, hx, hlog⟩ := visits_of max window key h
    calc grants key (fun c => c.bucket.startedAt = start) (checks max window calls).1
        = Window.grantedIn (max key).toNat start x.1 := by
          rw [← hlog]
          exact grants_eq (fun _ hc => hc) key _ (fun v => v.window.start == start) fun _ => rfl
      _ ≤ (max key).toNat := hx.limited start
  in_interval key t := by
    obtain ⟨x, hx, hlog⟩ := visits_of max window key h
    calc grants key (fun c => t ≤ c.call.now ∧ c.call.now ≤ t + window)
          (checks max window calls).1
        = x.1.countP fun v => v.granted (max key).toNat &&
            (decide (t ≤ v.time) && decide (v.time ≤ t + window)) := by
          rw [← hlog]
          exact grants_eq (fun _ hc => hc) key _
            (fun v => decide (t ≤ v.time) && decide (v.time ≤ t + window))
            fun _ => Bool.decide_and ..
      _ ≤ 2 * (max key).toNat := hx.granted_between_le t
  refused before c after heq hc := by
    obtain ⟨x, hx, hlog⟩ := visits_of max window c.call.key h
    rw [heq, answersOf_append, answersOf_cons, List.map_append, List.map_cons] at hlog
    rw [Checked.granted_eq (by rw [heq]; simp)] at hc
    calc (max c.call.key).toNat
        ≤ _ := hx.full_of_refused hlog.symm (of_decide_eq_false hc)
      _ = grants c.call.key (fun b => c.call.now ≤ b.call.now + window) before :=
          (grants_eq (fun b hb => by rw [heq]; exact List.mem_append_left _ hb) c.call.key _
            (fun v => decide (c.call.now ≤ v.time + window)) fun _ => rfl).symm
  counted before c after heq := by
    obtain ⟨x, hx, hlog⟩ := visits_of max window c.call.key h
    rw [heq, answersOf_append, answersOf_cons, List.map_append, List.map_cons] at hlog
    calc c.bucket.count.toNat
        = _ := hx.counted _ c.visit _ hlog.symm
      _ = grants c.call.key (fun b => b.bucket.startedAt = c.bucket.startedAt) before :=
          (grants_eq (fun b hb => by rw [heq]; exact List.mem_append_left _ hb) c.call.key _
            (fun v => v.window.start == c.bucket.startedAt) fun _ => rfl).symm
  no_overflow c hc hgranted := by
    have hmax := (max c.call.key).toNat_lt
    rw [Checked.granted_eq hc, Window.Visit.granted, decide_eq_true_iff] at hgranted
    have hcount : c.visit.window.used = c.bucket.count.toNat := rfl
    unfold UInt32.size
    omega
  alone key := by
    have halone : callsOf key (callsOf key calls) = callsOf key calls := by
      simp [callsOf, List.filter_filter]
    have hall : answersOf key (checks max window (callsOf key calls)).1 =
        (checks max window (callsOf key calls)).1 := by
      refine List.filter_eq_self.mpr fun c hc => ?_
      have hcall : c.call ∈ callsOf key calls := by
        rw [← checks_call max window (callsOf key calls)]
        exact List.mem_map_of_mem hc
      exact (List.mem_filter.mp hcall).2
    have hvisits := (checks_visits max window key
      (h.sublist List.filter_sublist : (callsOf key calls).Pairwise (·.now ≤ ·.now))).1
    rw [halone] at hvisits
    rw [answersOf_eq, (checks_visits max window key h).1, ← hvisits, ← answersOf_eq, hall]

/-- Two calls of a key within a window, one of another key, and one in the next window. -/
def crowdedCalls : List CheckCall :=
  [⟨"login:a", 0⟩, ⟨"login:a", 9⟩, ⟨"login:b", 9⟩, ⟨"login:a", 11⟩]

theorem rate_limits_crowded :
    (checks (fun _ => 1) 10 crowdedCalls).1.map Checked.granted = [true, false, true, true] ∧
      RateLimited (fun _ => 1) 10 crowdedCalls (checks (fun _ => 1) 10 crowdedCalls).1 :=
  ⟨by decide +kernel, rate_limits (fun _ => 1) 10 crowdedCalls (by decide)⟩

end IamRust
