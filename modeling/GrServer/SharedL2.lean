import GrServer.Faults
import GrServer.JsonText
import GrServer.Resp
import GrServer.StorageBind

/-!
# The shared store in Redis

A client of the Redis protocol on a connection of its own for each command.
After every command it reads once, and takes what that read brings for the
reply.  The server is a function from the arguments of a command to its reply;
how its replies arrive, and what fails on the way, is part of the link.
-/

namespace GrServer

open Json Text Faults Resp

namespace SharedL2

abbrev Server := List (List UInt8) → Reply

/-- What a read meets: the bytes that are there, none when the peer has closed, or an error. -/
inductive ReadEvent where
  | arrived (k : ℕ)
  | failed (e : String)

structure Delivery where
  writeError : Option String
  read : ReadEvent

structure Link where
  connectError : Option String
  handshake : Server
  auth : Delivery
  select : Delivery
  command : Delivery

/-- What `parse_redis_url` gives beside the address. -/
structure RedisUrl where
  password : Option String
  db : UInt8

/-- `serde_json` and the messages of the standard library.  A document is not empty, does
not begin with a dollar sign, and may end in a carriage return. -/
structure L2Env where
  floats : FloatText
  fromStr : String → Option Json
  utf8Error : List UInt8 → String
  notEmpty : fromStr "" = none
  notDollar : ∀ t, fromStr ("$" ++ t) = none
  trailing : ∀ t, fromStr (t ++ "\r") = fromStr t

/-! ## The client -/

def redisRequest (args : List String) : String :=
  args.foldl (fun buf a => buf ++ ("$" ++ (asBytes a).length.repr ++ "\r\n" ++ a ++ "\r\n"))
    ("*" ++ args.length.repr ++ "\r\n")

def serve (S : Server) (request : List UInt8) : Reply :=
  match readCommand request with
  | some (args, []) => S args
  | _ => .error (asBytes "ERR Protocol error")

def redisWrite (d : Delivery) (S : Server) (args : List String) (pending : List UInt8) :
    Except String (List UInt8) :=
  match d.writeError with
  | some e => .error ("redis write: " ++ e)
  | none => .ok (pending ++ (serve S (asBytes (redisRequest args))).encode)

def redisRead (env : L2Env) (d : Delivery) (pending : List UInt8) :
    Except String (String × List UInt8) :=
  match d.read with
  | .failed e => .error ("redis read: " ++ e)
  | .arrived k =>
      let buf := pending.take (min k 65536)
      if buf.length = 0 then .error "redis eof"
      else
        match String.fromUTF8? ⟨buf.toArray⟩ with
        | none => .error ("redis utf8: " ++ env.utf8Error buf)
        | some s => .ok (s, pending.drop (min k 65536))

def greet (env : L2Env) (d : Delivery) (S : Server) (args : List String) (pending : List UInt8) :
    Except String (List UInt8) := do
  let pending ← redisWrite d S args pending
  let (_, pending) ← redisRead env d pending
  return pending

def authenticate (env : L2Env) (url : RedisUrl) (link : Link) : Except String (List UInt8) :=
  match url.password with
  | some pw => greet env link.auth link.handshake ["AUTH", pw] []
  | none => .ok []

def selectDb (env : L2Env) (url : RedisUrl) (link : Link) (pending : List UInt8) :
    Except String (List UInt8) :=
  if url.db ≠ 0 then greet env link.select link.handshake ["SELECT", url.db.toNat.repr] pending
  else .ok pending

def redisConnect (env : L2Env) (url : RedisUrl) (link : Link) : Except String (List UInt8) :=
  match link.connectError with
  | some e => .error e
  | none => authenticate env url link >>= selectDb env url link

def redisCmd (env : L2Env) (url : RedisUrl) (link : Link) (S : Server) (args : List String) :
    Except String String := do
  let pending ← redisConnect env url link
  let pending ← redisWrite link.command S args pending
  let (s, _) ← redisRead env link.command pending
  return s

def splitCrlf : Text → List Text
  | [] => [[]]
  | [c] => [[c]]
  | c :: d :: rest =>
      if c = '\r' ∧ d = '\n' then [] :: splitCrlf rest
      else (splitCrlf (d :: rest)).modifyHead (c :: ·)

/-- The text after a head, which for a bulk string is the second line whatever its length. -/
def parseHead (head : Text) (body : Option Text) : Option String :=
  if head = "$-1".toList ∨ head.head? = some '-' then none
  else
    match head with
    | '$' :: rest =>
        (StorageBind.parseI64 rest).bind fun n =>
          if n.toInt < 0 then none else body.map String.ofList
    | '+' :: rest => some (String.ofList rest)
    | _ => none

def parseBulk (resp : String) : Option String :=
  match splitCrlf resp.toList with
  | [] => none
  | head :: lines => parseHead head lines.head?

def sgKey (name : String) : String := "gr:sg:" ++ name

def jsonText (env : L2Env) (v : Json) : String := String.ofList (compact env.floats v)

def l2GetJson (env : L2Env) (url : Option RedisUrl) (link : Link) (S : Server) (name : String) :
    Option Json :=
  url.bind fun url =>
    match redisCmd env url link S ["GET", sgKey name] with
    | .ok resp => (parseBulk resp).bind env.fromStr
    | .error _ => none

def l2SetJson (env : L2Env) (url : Option RedisUrl) (link : Link) (S : Server) (name : String)
    (v : Json) : Except String Unit :=
  match url with
  | none => .error "l2_not_configured"
  | some url => do
      let resp ← redisCmd env url link S ["SET", sgKey name, jsonText env v]
      if containsStr resp "OK" || startsWith resp "+OK" then return ()
      else throw ("redis set unexpected: " ++ resp)

section Request

theorem asBytes_ascii {t : Text} (h : ∀ c ∈ t, c.toNat < 128) :
    asBytes (String.ofList t) = t.map fun c => UInt8.ofNat c.toNat := by
  rw [asBytes_eq_flatMap, String.toList_ofList]
  induction t with
  | nil => rfl
  | cons c t ih =>
      rw [List.flatMap_cons, List.map_cons, utf8EncodeChar_ascii (h c List.mem_cons_self),
        ih fun d hd => h d (List.mem_cons_of_mem c hd)]
      rfl

theorem asBytes_repr (n : ℕ) : asBytes n.repr = decimal n := by
  have htext : n.repr = String.ofList (Nat.toDigits 10 n) := by
    rw [← Nat.toList_repr, String.ofList_toList]
  rw [htext]
  apply asBytes_ascii
  intro c hc
  have hdigit := digit_lt (isDigit_of_mem_toDigits hc)
  omega

theorem asBytes_crlf : asBytes "\r\n" = crlf := rfl

theorem asBytes_dollar : asBytes "$" = [36] := rfl

theorem asBytes_announced (a : String) :
    asBytes ("$" ++ (asBytes a).length.repr ++ "\r\n" ++ a ++ "\r\n") = bulk (asBytes a) := by
  simp only [asBytes_append, asBytes_repr, asBytes_dollar, asBytes_crlf, bulk, List.append_assoc,
    List.cons_append, List.nil_append]

theorem asBytes_redisRequest (args : List String) :
    asBytes (redisRequest args) = command (args.map asBytes) := by
  have hstar : asBytes "*" = [42] := rfl
  have hfold : ∀ (l : List String) (buf : String),
      asBytes (l.foldl (fun buf a =>
        buf ++ ("$" ++ (asBytes a).length.repr ++ "\r\n" ++ a ++ "\r\n")) buf) =
      asBytes buf ++ (l.map asBytes).flatMap bulk := by
    intro l
    induction l with
    | nil => simp
    | cons a l ih =>
        intro buf
        rw [List.foldl_cons, ih, asBytes_append, asBytes_announced, List.map_cons,
          List.flatMap_cons, List.append_assoc]
  unfold redisRequest command
  rw [hfold, asBytes_append, asBytes_append, asBytes_repr, hstar, asBytes_crlf, List.length_map]
  rfl

theorem serve_request (S : Server) (args : List String) :
    serve S (asBytes (redisRequest args)) = S (args.map asBytes) := by
  have hread := readCommand_command (args.map asBytes) []
  rw [List.append_nil] at hread
  unfold serve
  rw [asBytes_redisRequest, hread]

end Request

/-! ## Lines -/

section Lines

variable {t m x : Text}

theorem splitCrlf_ne_nil (t : Text) : splitCrlf t ≠ [] := by
  induction t using splitCrlf.induct with
  | case1 => exact List.cons_ne_nil _ _
  | case2 c => exact List.cons_ne_nil _ _
  | case3 c d rest h ih =>
      rw [splitCrlf, if_pos h]
      exact List.cons_ne_nil _ _
  | case4 c d rest h ih =>
      rw [splitCrlf, if_neg h]
      cases hrest : splitCrlf (d :: rest) with
      | nil => exact absurd hrest ih
      | cons line lines => exact List.cons_ne_nil _ _

theorem modifyHead_append {f : Text → Text} {lines : List Text} (h : lines ≠ [])
    (others : List Text) : (lines ++ others).modifyHead f = lines.modifyHead f ++ others := by
  cases lines with
  | nil => exact absurd rfl h
  | cons line lines => rfl

theorem splitCrlf_append (m x : Text) :
    splitCrlf (m ++ '\r' :: '\n' :: x) = splitCrlf m ++ splitCrlf x := by
  induction m using splitCrlf.induct with
  | case1 => rfl
  | case2 c =>
      have hstep : splitCrlf (c :: '\r' :: '\n' :: x) =
          (splitCrlf ('\r' :: '\n' :: x)).modifyHead (c :: ·) := by
        rw [splitCrlf, if_neg fun h => absurd h.2 (by decide)]
      have hend : splitCrlf ('\r' :: '\n' :: x) = [] :: splitCrlf x := if_pos ⟨rfl, rfl⟩
      rw [List.singleton_append, hstep, hend]
      rfl
  | case3 c d rest h ih =>
      rw [List.cons_append, List.cons_append, splitCrlf, splitCrlf, if_pos h, if_pos h, ih]
      rfl
  | case4 c d rest h ih =>
      rw [List.cons_append, List.cons_append, splitCrlf, splitCrlf, if_neg h, if_neg h,
        ← List.cons_append, ih, modifyHead_append (splitCrlf_ne_nil _)]

theorem splitCrlf_of_not_mem (h : '\n' ∉ t) : splitCrlf t = [t] := by
  induction t using splitCrlf.induct with
  | case1 => rfl
  | case2 c => rfl
  | case3 c d rest hend ih =>
      rw [hend.2] at h
      simp at h
  | case4 c d rest hend ih =>
      rw [List.mem_cons, not_or] at h
      rw [splitCrlf, if_neg hend, ih h.2]
      rfl

theorem splitCrlf_cons {c : Char} (hc : c ≠ '\r') (t : Text) :
    splitCrlf (c :: t) = (splitCrlf t).modifyHead (c :: ·) := by
  cases t with
  | nil => rfl
  | cons d rest => rw [splitCrlf, if_neg fun h => hc h.1]

def firstLine (t : Text) : Text := (splitCrlf t).headD []

theorem firstLine_of_not_mem (h : '\n' ∉ t) : firstLine t = t := by
  unfold firstLine
  rw [splitCrlf_of_not_mem h]
  rfl

theorem splitCrlf_eq_cons (t : Text) : ∃ lines, splitCrlf t = firstLine t :: lines := by
  unfold firstLine
  cases h : splitCrlf t with
  | nil => exact absurd h (splitCrlf_ne_nil t)
  | cons line lines => exact ⟨lines, rfl⟩

theorem firstLine_cons {c : Char} (hc : c ≠ '\r') (t : Text) :
    firstLine (c :: t) = c :: firstLine t := by
  rcases splitCrlf_eq_cons t with ⟨lines, hlines⟩
  unfold firstLine at hlines ⊢
  rw [splitCrlf_cons hc, hlines]
  rfl

theorem parseBulk_of_split {s : String} {head : Text} {lines : List Text}
    (h : splitCrlf s.toList = head :: lines) : parseBulk s = parseHead head lines.head? := by
  unfold parseBulk
  rw [h]

theorem parseBulk_append {s : String} (h : s.toList = m ++ '\r' :: '\n' :: x) :
    parseBulk s = parseHead (firstLine m) ((splitCrlf m).tail ++ [firstLine x]).head? := by
  rcases splitCrlf_eq_cons m with ⟨lines, hm⟩
  rcases splitCrlf_eq_cons x with ⟨others, hx⟩
  have hsplit : splitCrlf s.toList = firstLine m :: (lines ++ firstLine x :: others) := by
    rw [h, splitCrlf_append, hm, hx]
    rfl
  rw [parseBulk_of_split hsplit, hm, List.tail_cons]
  cases lines <;> rfl

end Lines

/-! ## What a read brings -/

section Reads

variable {env : L2Env} {url : RedisUrl} {link : Link} {S : Server} {args : List String}
  {r : Reply} {resp name : String} {pending left : List UInt8} {k : ℕ}

theorem redisRead_eq_ok {d : Delivery} {out : String × List UInt8} :
    redisRead env d pending = .ok out ↔
      ∃ k, d.read = .arrived k ∧ asBytes out.1 = pending.take (min k 65536) ∧ out.1 ≠ "" ∧
        out.2 = pending.drop (min k 65536) := by
  unfold redisRead
  cases hread : d.read with
  | failed e => simp
  | arrived k =>
      have hempty : ∀ s : String, s = "" ↔ (asBytes s).length = 0 := by
        intro s
        rw [← asBytes_inj, List.length_eq_zero_iff]
        rfl
      simp only [ReadEvent.arrived.injEq, exists_eq_left']
      split_ifs with hlength
      · constructor
        · intro h
          cases h
        · rintro ⟨hbytes, hne, -⟩
          rw [← hbytes] at hlength
          exact absurd ((hempty out.1).mpr hlength) hne
      · cases hutf8 : String.fromUTF8? ⟨(pending.take (min k 65536)).toArray⟩ with
        | none =>
            constructor
            · intro h
              cases h
            · rintro ⟨hbytes, -, -⟩
              rw [fromUTF8?_eq_some.mpr hbytes] at hutf8
              cases hutf8
        | some s =>
            have hs := fromUTF8?_eq_some.mp hutf8
            constructor
            · intro h
              cases h
              refine ⟨hs, ?_, rfl⟩
              rwa [ne_eq, hempty, hs]
            · rintro ⟨hbytes, -, hrest⟩
              have heq : s = out.1 := asBytes_inj.mp (hs.trans hbytes.symm)
              rw [heq, ← hrest]

/-- The text that the last read brings when the server gives the reply `r`. -/
def Brings (env : L2Env) (url : RedisUrl) (link : Link) (r : Reply) (resp : String) : Prop :=
  ∃ left k, redisConnect env url link = .ok left ∧ link.command.writeError = none ∧
    link.command.read = .arrived k ∧ asBytes resp = (left ++ r.encode).take (min k 65536) ∧
    resp ≠ ""

theorem redisWrite_eq_ok {d : Delivery} :
    redisWrite d S args left = .ok pending ↔
      d.writeError = none ∧ pending = left ++ (S (args.map asBytes)).encode := by
  unfold redisWrite
  rw [← serve_request S args]
  cases d.writeError with
  | some e => simp
  | none => simp [eq_comm]

theorem redisCmd_eq_ok :
    redisCmd env url link S args = .ok resp ↔ Brings env url link (S (args.map asBytes)) resp := by
  constructor
  · intro h
    rcases bind_eq_ok h with ⟨left, hconnect, h⟩
    rcases bind_eq_ok h with ⟨pending, hwrite, h⟩
    rcases bind_eq_ok h with ⟨out, hread, h⟩
    cases h
    rcases redisWrite_eq_ok.mp hwrite with ⟨hsent, rfl⟩
    rcases redisRead_eq_ok.mp hread with ⟨k, hk, hbytes, hne, -⟩
    exact ⟨left, k, hconnect, hsent, hk, hbytes, hne⟩
  · rintro ⟨left, k, hconnect, hsent, hk, hbytes, hne⟩
    have hread : redisRead env link.command (left ++ (S (args.map asBytes)).encode) =
        .ok (resp, (left ++ (S (args.map asBytes)).encode).drop (min k 65536)) :=
      redisRead_eq_ok.mpr ⟨k, hk, hbytes, hne, rfl⟩
    unfold redisCmd
    rw [hconnect]
    dsimp only [bind, Except.bind]
    rw [redisWrite_eq_ok.mpr ⟨hsent, rfl⟩]
    dsimp only
    rw [hread]
    rfl

theorem redisCmd_cases (env : L2Env) (url : RedisUrl) (link : Link) (S : Server)
    (args : List String) :
    (∃ e, redisCmd env url link S args = .error e ∧
      ∀ resp, ¬Brings env url link (S (args.map asBytes)) resp) ∨
    ∃ resp, redisCmd env url link S args = .ok resp ∧
      ∀ resp', Brings env url link (S (args.map asBytes)) resp' ↔ resp' = resp := by
  simp only [← redisCmd_eq_ok]
  cases redisCmd env url link S args with
  | error e =>
      refine Or.inl ⟨e, rfl, ?_⟩
      intro resp h
      cases h
  | ok resp => exact Or.inr ⟨resp, rfl, fun resp' => by rw [Except.ok.injEq, eq_comm]⟩

theorem l2GetJson_eq_some {v : Json} :
    l2GetJson env (some url) link S name = some v ↔
      ∃ resp, Brings env url link (S (["GET", sgKey name].map asBytes)) resp ∧
        (parseBulk resp).bind env.fromStr = some v := by
  unfold l2GetJson
  rw [Option.bind_some]
  rcases redisCmd_cases env url link S ["GET", sgKey name] with ⟨e, he, hnone⟩ | ⟨resp, hok, honly⟩
  · rw [he]
    simp only [hnone, false_and, exists_false, reduceCtorEq]
  · rw [hok]
    simp only [honly, exists_eq_left]

theorem containsStr_of_startsWith (h : startsWith resp "+OK" = true) :
    containsStr resp "OK" = true := by
  have hprefix : "+OK".toList <+: resp.toList := List.isPrefixOf_iff_prefix.mp h
  have hwithin : "OK".toList <:+: "+OK".toList := ⟨['+'], [], rfl⟩
  exact decide_eq_true (hwithin.trans hprefix.isInfix)

theorem l2SetJson_eq_ok {v : Json} :
    l2SetJson env (some url) link S name v = .ok () ↔
      ∃ resp, Brings env url link (S (["SET", sgKey name, jsonText env v].map asBytes)) resp ∧
        containsStr resp "OK" = true := by
  unfold l2SetJson
  dsimp only
  rcases redisCmd_cases env url link S ["SET", sgKey name, jsonText env v] with
    ⟨e, he, hnone⟩ | ⟨resp, hok, honly⟩
  · rw [he]
    simp only [bind, Except.bind, hnone, false_and, exists_false, reduceCtorEq]
  · have hif : (containsStr resp "OK" || startsWith resp "+OK") = containsStr resp "OK" := by
      cases hstart : startsWith resp "+OK" with
      | false => rw [Bool.or_false]
      | true => rw [containsStr_of_startsWith hstart, Bool.or_true]
    rw [hok]
    simp only [bind, Except.bind, hif, honly, exists_eq_left]
    cases containsStr resp "OK" with
    | false => exact iff_of_false (by intro h; cases h) (by decide)
    | true => exact iff_of_true rfl rfl

theorem tail_greet {d : Delivery} (h : greet env d S args pending = .ok left) : Tail left := by
  rcases bind_eq_ok h with ⟨stream, hwrite, h⟩
  rcases bind_eq_ok h with ⟨out, hread, h⟩
  cases h
  rcases redisRead_eq_ok.mp hread with ⟨k, -, -, -, hrest⟩
  unfold redisWrite at hwrite
  cases herror : d.writeError with
  | some e =>
      rw [herror] at hwrite
      cases hwrite
  | none =>
      rw [herror] at hwrite
      cases hwrite
      rw [hrest]
      exact (tail_append_encode pending _).drop _

theorem tail_redisConnect (h : redisConnect env url link = .ok left) : Tail left := by
  unfold redisConnect at h
  cases hconnect : link.connectError with
  | some e =>
      rw [hconnect] at h
      cases h
  | none =>
      rw [hconnect] at h
      rcases bind_eq_ok h with ⟨pending, hauth, h⟩
      have hpending : Tail pending := by
        unfold authenticate at hauth
        cases hpw : url.password with
        | some pw =>
            rw [hpw] at hauth
            exact tail_greet hauth
        | none =>
            rw [hpw] at hauth
            cases hauth
            exact .inl rfl
      unfold selectDb at h
      split_ifs at h with hdb
      · exact tail_greet h
      · cases h
        exact hpending

end Reads

/-! ## A bulk reply that is cut -/

section Cut

variable {env : L2Env} {s t : String} {b y : List UInt8} {k n : ℕ}

def announced (b : List UInt8) : List UInt8 := 36 :: (decimal b.length ++ crlf)

theorem bulk_eq (b : List UInt8) : bulk b = announced b ++ (b ++ crlf) := rfl

theorem toList_eq_cons {c : UInt8} (hc : c.toNat < 128) (h : asBytes s = c :: y) :
    ∃ q : String, s.toList = Char.ofNat c.toNat :: q.toList ∧ asBytes q = y := by
  rcases asBytes_boundary hc (h.trans (List.nil_append _).symm) with ⟨p, q, hs, hp, hq⟩
  have hempty : p = "" := asBytes_inj.mp hp
  rw [hempty] at hs
  exact ⟨q, hs, hq⟩

theorem newline_not_mem (h : 10 ∉ asBytes s) : '\n' ∉ s.toList := by
  intro hmem
  apply h
  rw [asBytes_eq_flatMap]
  exact List.mem_flatMap.mpr ⟨'\n', hmem, by decide⟩

theorem newline_not_mem_announced (hk : k < (announced b).length) :
    10 ∉ (announced b).take k := by
  have hsplit : announced b = (36 :: decimal b.length ++ [13]) ++ [10] := by
    unfold announced crlf
    simp
  have hlength : k ≤ (36 :: decimal b.length ++ [13]).length := by
    rw [hsplit, List.length_append, List.length_singleton] at hk
    omega
  rw [hsplit, List.take_append_of_le_length hlength]
  intro hmem
  have hall := List.mem_of_mem_take hmem
  simp only [List.cons_append, List.mem_cons, List.mem_append, List.not_mem_nil, or_false] at hall
  rcases hall with h | h | h
  · exact absurd h (by decide)
  · exact not_mem_decimal (by decide) h
  · exact absurd h (by decide)

theorem parseBulk_cut_announced (hk : k < (announced b).length)
    (hs : asBytes s = (bulk b).take k) (hne : s ≠ "") : parseBulk s = none := by
  rw [bulk_eq, List.take_append_of_le_length hk.le] at hs
  have hline : splitCrlf s.toList = [s.toList] := by
    apply splitCrlf_of_not_mem
    apply newline_not_mem
    rw [hs]
    exact newline_not_mem_announced hk
  rw [parseBulk_of_split hline]
  cases k with
  | zero => exact absurd (asBytes_inj.mp hs) hne
  | succ k =>
      rcases toList_eq_cons (by decide) hs with ⟨q, hq, -⟩
      rw [hq]
      unfold parseHead
      split_ifs
      · rfl
      · exact Option.bind_eq_none_iff.mpr fun n _ => by split_ifs <;> rfl

theorem parseBulk_announced (hn : b.length < 2 ^ 63) (hs : asBytes s = announced b ++ y) :
    ∃ q : String, asBytes q = y ∧ parseBulk s = some (String.ofList (firstLine q.toList)) := by
  have hbytes : asBytes s = (36 :: decimal b.length ++ [13]) ++ 10 :: y := by
    rw [hs]
    unfold announced crlf
    simp
  rcases asBytes_boundary (by decide) hbytes with ⟨p, q, hpq, hp, hq⟩
  have hhead : p = String.ofList ('$' :: Nat.toDigits 10 b.length ++ ['\r']) := by
    apply asBytes_inj.mp
    rw [hp, asBytes_ascii]
    · simp [decimal]
    · intro c hc
      simp only [List.cons_append, List.mem_cons, List.mem_append, List.not_mem_nil,
        or_false] at hc
      rcases hc with rfl | hc | rfl
      · decide
      · have hdigit := digit_lt (isDigit_of_mem_toDigits hc)
        omega
      · decide
  have hdigits : ∀ c ∈ Nat.toDigits 10 b.length, c.isDigit = true :=
    fun c hc => isDigit_of_mem_toDigits hc
  have hbreak : '\n' ∉ '$' :: Nat.toDigits 10 b.length := by
    intro hmem
    rcases List.mem_cons.mp hmem with h | h
    · exact absurd h (by decide)
    · exact absurd (hdigits _ h) (by decide)
  have hlist : s.toList = ('$' :: Nat.toDigits 10 b.length) ++ '\r' :: '\n' :: q.toList := by
    rw [hpq, hhead, String.toList_ofList]
    simp
  refine ⟨q, hq, ?_⟩
  rw [parseBulk_append hlist, splitCrlf_of_not_mem hbreak, firstLine_of_not_mem hbreak]
  show parseHead ('$' :: Nat.toDigits 10 b.length) (some (firstLine q.toList)) = _
  unfold parseHead
  have hcount : ¬('$' :: Nat.toDigits 10 b.length = "$-1".toList ∨
      ('$' :: Nat.toDigits 10 b.length).head? = some '-') := by
    rintro (h | h)
    · have hminus : '-' ∈ Nat.toDigits 10 b.length := by
        rw [(List.cons.inj h).2]
        exact List.mem_cons_self
      exact absurd (hdigits _ hminus) (by decide)
    · rw [List.head?_cons] at h
      exact absurd (Option.some.inj h) (by decide)
  have hvalue : (-2 ^ 63 : ℤ) ≤ (b.length : ℤ) ∧ (b.length : ℤ) < 2 ^ 63 := by omega
  rw [if_neg hcount]
  show (StorageBind.parseI64 (Nat.toDigits 10 b.length)).bind _ = _
  rw [StorageBind.parseI64_digits Nat.toDigits_ne_nil (List.all_eq_true.mpr hdigits),
    Nat.ofDigitChars_ten_toDigits, if_pos hvalue, Option.bind_some,
    Int64.toInt_ofInt_of_le hvalue.1 hvalue.2, if_neg (by omega)]
  rfl

def readBack (env : L2Env) (bytes : List UInt8) : Option Json :=
  (String.fromUTF8? ⟨bytes.toArray⟩).bind env.fromStr

theorem readBack_asBytes (env : L2Env) (s : String) : readBack env (asBytes s) = env.fromStr s := by
  unfold readBack
  rw [fromUTF8?_asBytes, Option.bind_some]

theorem asBytes_announced_text (b : List UInt8) :
    asBytes ("$" ++ b.length.repr ++ "\r\n") = announced b := by
  rw [asBytes_append, asBytes_append, asBytes_repr, asBytes_dollar, asBytes_crlf]
  rfl

theorem cut_body {text q : String} {m : ℕ} (hlines : 10 ∉ asBytes text)
    (hq : asBytes q = (asBytes text ++ crlf).take m) :
    env.fromStr (String.ofList (firstLine q.toList)) = readBack env ((asBytes text).take m) := by
  rcases Nat.lt_or_ge (asBytes text).length m with hlong | hshort
  · rw [List.take_of_length_le hlong.le, readBack_asBytes]
    by_cases hone : m = (asBytes text).length + 1
    · have hbytes : asBytes q = asBytes (text ++ "\r") := by
        have hcr : asBytes "\r" = crlf.take 1 := rfl
        rw [hq, hone, asBytes_append, List.take_length_add_append, hcr]
      rw [asBytes_inj.mp hbytes, firstLine_of_not_mem, String.ofList_toList, env.trailing]
      apply newline_not_mem
      rw [asBytes_append, List.mem_append, not_or]
      exact ⟨hlines, by decide⟩
    · have hbytes : asBytes q = asBytes (text ++ "\r\n") := by
        rw [hq, asBytes_append, asBytes_crlf, List.take_of_length_le]
        rw [List.length_append]
        show (asBytes text).length + 2 ≤ m
        omega
      have hlist : (text ++ "\r\n").toList = text.toList ++ '\r' :: '\n' :: [] := by
        rw [String.toList_append]
        rfl
      rw [asBytes_inj.mp hbytes, hlist]
      unfold firstLine
      rw [splitCrlf_append, splitCrlf_of_not_mem (newline_not_mem hlines)]
      show env.fromStr (String.ofList text.toList) = _
      rw [String.ofList_toList]
  · rw [List.take_append_of_le_length hshort] at hq
    have hline : '\n' ∉ q.toList := by
      apply newline_not_mem
      rw [hq]
      exact fun hmem => hlines (List.mem_of_mem_take hmem)
    rw [firstLine_of_not_mem hline, String.ofList_toList, ← hq, readBack_asBytes]

theorem exists_cut_text {text : String} {m : ℕ} {w : Json}
    (h : readBack env ((asBytes text).take m) = some w) :
    ∃ q : String, asBytes q = (asBytes text ++ crlf).take m := by
  rcases Nat.le_total m (asBytes text).length with hle | hge
  · rcases Option.bind_eq_some_iff.mp h with ⟨q, hq, -⟩
    refine ⟨q, ?_⟩
    rw [List.take_append_of_le_length hle]
    exact fromUTF8?_eq_some.mp hq
  · have hend : ∀ j, ∃ e : String, asBytes e = crlf.take j := by
      intro j
      rcases j with _ | _ | j
      · exact ⟨"", rfl⟩
      · exact ⟨"\r", rfl⟩
      · refine ⟨"\r\n", ?_⟩
        rw [asBytes_crlf, List.take_of_length_le]
        show 2 ≤ j + 1 + 1
        omega
    rcases hend (m - (asBytes text).length) with ⟨e, he⟩
    refine ⟨text ++ e, ?_⟩
    rw [asBytes_append, List.take_append, List.take_of_length_le hge, he]

theorem parse_cut_bulk {text : String} (hfits : (asBytes text).length < 2 ^ 63)
    (hlines : 10 ∉ asBytes text) (w : Json) :
    (∃ s, asBytes s = (bulk (asBytes text)).take k ∧ s ≠ "" ∧
      (parseBulk s).bind env.fromStr = some w) ↔
    (announced (asBytes text)).length ≤ k ∧
      readBack env ((asBytes text).take (k - (announced (asBytes text)).length)) = some w := by
  have htake : (announced (asBytes text)).length ≤ k → (bulk (asBytes text)).take k =
      announced (asBytes text) ++
        (asBytes text ++ crlf).take (k - (announced (asBytes text)).length) := by
    intro hle
    rw [bulk_eq, List.take_append, List.take_of_length_le hle]
  constructor
  · rintro ⟨s, hs, hne, hparse⟩
    rcases Nat.lt_or_ge k (announced (asBytes text)).length with hlt | hle
    · rw [parseBulk_cut_announced hlt hs hne] at hparse
      cases hparse
    · refine ⟨hle, ?_⟩
      rw [htake hle] at hs
      rcases parseBulk_announced hfits hs with ⟨q, hq, hbody⟩
      rw [hbody, Option.bind_some, cut_body hlines hq] at hparse
      exact hparse
  · rintro ⟨hle, hread⟩
    rcases exists_cut_text hread with ⟨q, hq⟩
    have hs : asBytes ("$" ++ (asBytes text).length.repr ++ "\r\n" ++ q) =
        announced (asBytes text) ++
          (asBytes text ++ crlf).take (k - (announced (asBytes text)).length) := by
      rw [asBytes_append, asBytes_announced_text, hq]
    refine ⟨_, hs.trans (htake hle).symm, ?_, ?_⟩
    · intro hempty
      rw [hempty] at hs
      cases hs
    · rcases parseBulk_announced hfits hs with ⟨q', hq', hbody⟩
      rw [hbody, Option.bind_some, cut_body hlines hq']
      exact hread

end Cut

section Leftover

variable {env : L2Env} {s : String} {b left : List UInt8} {k : ℕ} {w : Json}

theorem parseHead_dollar {head x : Text}
    (h : (parseHead head (some ('$' :: x))).bind env.fromStr = some w) (body : Option Text) :
    parseHead head body = parseHead head (some ('$' :: x)) := by
  unfold parseHead at h ⊢
  split_ifs at h ⊢ with hnone
  · rfl
  · split
    · rename_i rest
      change ((StorageBind.parseI64 rest).bind fun n =>
        if n.toInt < 0 then none else some (String.ofList ('$' :: x))).bind env.fromStr = some w at h
      cases hcount : StorageBind.parseI64 rest with
      | none => rfl
      | some n =>
          rw [hcount, Option.bind_some] at h
          split_ifs at h with hneg
          · cases h
          · have hdollar : String.ofList ('$' :: x) = "$" ++ String.ofList x :=
              String.toList_injective (by simp)
            rw [Option.bind_some, hdollar, env.notDollar] at h
            cases h
    · rfl
    · rfl

theorem parseBulk_newline {q : String} (h : s.toList = '\n' :: q.toList) : parseBulk s = none := by
  rcases splitCrlf_eq_cons s.toList with ⟨lines, hlines⟩
  rw [parseBulk_of_split hlines, h, firstLine_cons (by decide)]
  unfold parseHead
  split_ifs
  · rfl
  · rfl

theorem asBytes_nil_reply : asBytes "$-1\r\n" = Reply.nil.encode := rfl

theorem exists_nil_text (j : ℕ) :
    ∃ q : String, asBytes q = Reply.nil.encode.take j := by
  refine ⟨String.ofList ("$-1\r\n".toList.take j), ?_⟩
  have hascii : ∀ c ∈ "$-1\r\n".toList, c.toNat < 128 := by simp
  rw [asBytes_ascii fun c hc => hascii c (List.mem_of_mem_take hc), List.map_take,
    ← asBytes_ascii hascii, String.ofList_toList, asBytes_nil_reply]

theorem nil_of_bulk (htail : Tail left) (hleft : left ≠ [])
    (hs : asBytes s = (left ++ bulk b).take k) (hne : s ≠ "")
    (h : (parseBulk s).bind env.fromStr = some w) :
    ∃ s', asBytes s' = (left ++ Reply.nil.encode).take k ∧ s' ≠ "" ∧
      (parseBulk s').bind env.fromStr = some w := by
  rcases htail with hnil | rfl | ⟨m, rfl⟩
  · exact absurd hnil hleft
  · cases k with
    | zero => exact absurd (asBytes_inj.mp hs) hne
    | succ k =>
        rcases toList_eq_cons (by decide) hs with ⟨q, hq, -⟩
        rw [parseBulk_newline hq] at h
        cases h
  · rcases Nat.lt_or_ge (m ++ crlf).length k with hlong | hshort
    · rw [List.take_append, List.take_of_length_le hlong.le] at hs
      rcases exists_nil_text (k - (m ++ crlf).length) with ⟨q', hq'⟩
      generalize hj : k - (m ++ crlf).length = j at hs hq'
      cases j with
      | zero => omega
      | succ j =>
          have hbytes : asBytes s = (m ++ [13]) ++ 10 :: (bulk b).take (j + 1) := by
            rw [hs]
            simp [crlf]
          rcases asBytes_boundary (by decide) hbytes with ⟨p, q, hpq, hp, hq⟩
          rcases asBytes_boundary (by decide) hp with ⟨p', e, hp', hpm, he⟩
          have hend : e = "" := asBytes_inj.mp he
          have hlist : s.toList = p'.toList ++ '\r' :: '\n' :: q.toList := by
            rw [hpq, hp', hend]
            simp
          rcases toList_eq_cons (by decide) hq with ⟨x, hx, -⟩
          have hlist' : (p' ++ "\r\n" ++ q').toList = p'.toList ++ '\r' :: '\n' :: q'.toList := by
            simp
          have hbytes' : asBytes (p' ++ "\r\n" ++ q') =
              (m ++ crlf ++ Reply.nil.encode).take k := by
            rw [asBytes_append, asBytes_append, hpm, asBytes_crlf, hq', List.take_append,
              List.take_of_length_le hlong.le, hj]
          refine ⟨p' ++ "\r\n" ++ q', hbytes', ?_, ?_⟩
          · intro hempty
            have hlength := congrArg (fun t => (asBytes t).length) hempty
            simp only [asBytes_append, asBytes_crlf, List.length_append] at hlength
            have hempty : (asBytes "").length = 0 := rfl
            have htwo : crlf.length = 2 := rfl
            omega
          · rw [parseBulk_append hlist] at h
            rw [parseBulk_append hlist']
            cases hmore : (splitCrlf p'.toList).tail with
            | cons line lines =>
                rw [hmore] at h
                exact h
            | nil =>
                rw [hmore] at h
                have hfirst : firstLine q.toList = '$' :: firstLine x.toList := by
                  rw [hx]
                  exact firstLine_cons (by decide) _
                rw [hfirst] at h
                rw [List.nil_append, List.head?_cons] at h ⊢
                rw [parseHead_dollar h]
                exact h
    · refine ⟨s, ?_, hne, h⟩
      rw [hs, List.take_append_of_le_length hshort, List.take_append_of_le_length hshort]

end Leftover

end SharedL2

end GrServer
