import BlackSwan.Login
import BlackSwan.Separators

/-! # The query to the AP

`APMgrHandler::checkLoginTokent` prints the data of an `AuthInfo` into a URL, in a buffer of 2048
characters.  The strings of the client are printed as they are, up to their first zero byte, so a
string with a separator in it reads as two fields.

`query_unambiguous_iff` says which data no other data have the same URL as. -/

namespace BlackSwan.APMgrHandler

open Wire Texts Login
open GateState (cString)

/-! ### The format -/

def ascii (cs : List Char) : Bytes := cs.map fun c => UInt8.ofNat c.toNat

def sdk_id : Bytes := ascii ['?', 's', 'd', 'k', '_', 'i', 'd', '=']
def account : Bytes := ascii ['&', 'a', 'c', 'c', 'o', 'u', 'n', 't', '=']
def token : Bytes := ascii ['&', 't', 'o', 'k', 'e', 'n', '=']
def serverid : Bytes := ascii ['&', 's', 'e', 'r', 'v', 'e', 'r', 'i', 'd', '=']
def invite : Bytes := ascii ['&', 'i', 'n', 'v', 'i', 't', 'e', '=']
def reserve : Bytes := ascii ['&', 'r', 'e', 's', 'e', 'r', 'v', 'e', '=']
def client_ip : Bytes := ascii ['&', 'c', 'l', 'i', 'e', 'n', 't', '_', 'i', 'p', '=']

/-- `APMgrHandler::checkLoginTokent`: the URL that is asked for, if there is a login URL.
`snprintf` is told of 2047 characters. -/
def checkLoginTokent (loginUrl : Bytes) (auth : AuthInfo) : Option Bytes :=
  if loginUrl = [] then none else
  let strAuthenID := auth.getVal .gl_csAuthenID
  let strToken := auth.getVal .gl_csReservePwd
  let apType := auth.APType_
  let reserve_ := auth.reserve_
  let areaGroup := auth.areaGroup_
  let strIP := auth.getVal .gl_csClientIP
  let strInviteCode := auth.getVal .gl_csInviteCode
  some ((cString loginUrl ++ (sdk_id ++ (decimalInt apType ++ (account ++ (cString strAuthenID ++
    (token ++ (cString strToken ++ (serverid ++ (decimal areaGroup.toNat ++ (invite ++
    (cString strInviteCode ++ (reserve ++ (decimal reserve_.toNat ++ (client_ip ++
    cString strIP)))))))))))))).take 2046)

/-! ### The data of a query -/

/-- What is printed of an `AuthInfo`. -/
@[ext]
structure QueryData where
  account_ : Bytes
  token_ : Bytes
  apType : ℤ
  areaGroup : UInt32
  invite_ : Bytes
  reserve_ : UInt32
  ip : Bytes
deriving DecidableEq, Repr

def queryData (a : AuthInfo) : QueryData where
  account_ := a.getVal .gl_csAuthenID
  token_ := a.getVal .gl_csReservePwd
  apType := a.APType_
  areaGroup := a.areaGroup_
  invite_ := a.getVal .gl_csInviteCode
  reserve_ := a.reserve_
  ip := a.getVal .gl_csClientIP

namespace QueryData

/-- An `AuthInfo` with these data. -/
def toAuth (d : QueryData) : AuthInfo where
  kv_list_ := [(.gl_csAuthenID, d.account_), (.gl_csReservePwd, d.token_),
    (.gl_csInviteCode, d.invite_), (.gl_csClientIP, d.ip)]
  auth_id_ := 0
  APType_ := d.apType
  reserve_ := d.reserve_
  areaGroup_ := d.areaGroup

@[simp] theorem queryData_toAuth (d : QueryData) : queryData d.toAuth = d := rfl

/-- No string has a zero byte. -/
def NulFree (d : QueryData) : Prop := 0 ∉ d.account_ ∧ 0 ∉ d.token_ ∧ 0 ∉ d.invite_ ∧ 0 ∉ d.ip

/-- The strings as `c_str` gives them to `snprintf`. -/
def cStrings (d : QueryData) : QueryData :=
  { d with
    account_ := cString d.account_
    token_ := cString d.token_
    invite_ := cString d.invite_
    ip := cString d.ip }

/-- The text between token and invite code. -/
def serverMark (n : UInt32) : Bytes := serverid ++ decimal n.toNat ++ invite

/-- The text between invite code and address. -/
def reserveMark (n : UInt32) : Bytes := reserve ++ decimal n.toNat ++ client_ip

/-- The strings behind the account, each with the text before it. -/
def fields (d : QueryData) : List (Bytes × Bytes) :=
  [(token, d.token_), (serverMark d.areaGroup, d.invite_), (reserveMark d.reserve_, d.ip)]

/-- The query behind the login URL. -/
def text (d : QueryData) : Bytes :=
  sdk_id ++ (decimalInt d.apType ++ (account ++ join d.account_ d.fields))

end QueryData

theorem checkLoginTokent_eq {loginUrl : Bytes} (hurl : loginUrl ≠ []) (a : AuthInfo) :
    checkLoginTokent loginUrl a =
      some ((cString loginUrl ++ (queryData a).cStrings.text).take 2046) := by
  simp [checkLoginTokent, hurl, QueryData.text, QueryData.fields, join, QueryData.serverMark,
    QueryData.reserveMark, QueryData.cStrings, queryData]

/-! ### Reading a query -/

/-- The decimal numbers of 32 bits. -/
def numbers : Set Bytes := Set.range fun n : UInt32 => decimal n.toNat

/-- The texts that can be between two of the strings. -/
def marks : List (Set Bytes) :=
  [{token}, Set.range QueryData.serverMark, Set.range QueryData.reserveMark]

theorem bracket_numbers {w v : Bytes} :
    bracket 38 w v numbers =
      Set.range fun n : UInt32 => 38 :: w ++ decimal n.toNat ++ 38 :: v := by
  ext s
  simp [bracket, numbers, eq_comm]

theorem separators_marks : ∀ S ∈ marks, Separators S := by
  have hdigits (d : Bytes) (hd : d ∈ numbers) : 38 ∉ d := by
    obtain ⟨n, rfl⟩ := hd
    exact not_mem_decimal (by decide) _
  have hserver : Separators (Set.range QueryData.serverMark) := by
    have h := separators_bracket (c := (38 : UInt8)) (a := 115) (b := 105)
      (w := ascii ['e', 'r', 'v', 'e', 'r', 'i', 'd', '='])
      (v := ascii ['n', 'v', 'i', 't', 'e', '=']) (by decide) (by decide) (by decide) hdigits
    rwa [bracket_numbers] at h
  have hreserve : Separators (Set.range QueryData.reserveMark) := by
    have h := separators_bracket (c := (38 : UInt8)) (a := 114) (b := 99)
      (w := ascii ['e', 's', 'e', 'r', 'v', 'e', '='])
      (v := ascii ['l', 'i', 'e', 'n', 't', '_', 'i', 'p', '=']) (by decide) (by decide) (by decide)
      hdigits
    rwa [bracket_numbers] at h
  intro S hS
  simp only [marks, List.mem_cons, List.not_mem_nil, or_false] at hS
  rcases hS with rfl | rfl | rfl
  · exact separators_singleton (c := 38) (by decide)
  · exact hserver
  · exact hreserve

namespace QueryData

variable {d d' : QueryData}

theorem serverMark_injective : Function.Injective serverMark := by
  intro n n' h
  have h := List.append_cancel_left (List.append_cancel_right h)
  exact UInt32.toNat_inj.mp (decimal_injective h)

theorem reserveMark_injective : Function.Injective reserveMark := by
  intro n n' h
  have h := List.append_cancel_left (List.append_cancel_right h)
  exact UInt32.toNat_inj.mp (decimal_injective h)

theorem fits_fields (d : QueryData) : Fits marks d.fields :=
  .cons rfl (.cons ⟨d.areaGroup, rfl⟩ (.cons ⟨d.reserve_, rfl⟩ .nil))

/-- The data that a reading of a query stands for. -/
theorem exists_of_fits (apType : ℤ) (f : Bytes) {r : List (Bytes × Bytes)} (hr : Fits marks r) :
    ∃ d : QueryData, d.apType = apType ∧ d.account_ = f ∧ d.fields = r := by
  obtain ⟨⟨k, t⟩, r₁, hk, hr₁, rfl⟩ := List.forall₂_cons_left_iff.mp hr
  obtain ⟨⟨m, i⟩, r₂, ⟨S, hm⟩, hr₂, rfl⟩ := List.forall₂_cons_left_iff.mp hr₁
  obtain ⟨⟨n, p⟩, r₃, ⟨R, hn⟩, hr₃, rfl⟩ := List.forall₂_cons_left_iff.mp hr₂
  obtain rfl := List.forall₂_nil_left_iff.mp hr₃
  obtain rfl : k = token := hk
  obtain rfl : serverMark S = m := hm
  obtain rfl : reserveMark R = n := hn
  exact ⟨⟨f, t, apType, S, i, R, p⟩, rfl, rfl, rfl⟩

/-- Data are told apart by the AP type and the reading. -/
theorem eq_of_fields (hap : d'.apType = d.apType) (hacc : d'.account_ = d.account_)
    (hf : d'.fields = d.fields) : d' = d := by
  simp only [fields, List.cons.injEq, Prod.mk.injEq, true_and, and_true] at hf
  obtain ⟨htok, ⟨harea, hinv⟩, hres, hip⟩ := hf
  exact QueryData.ext hacc htok hap (serverMark_injective harea) hinv (reserveMark_injective hres) hip

/-- Equal queries have the same AP type and the same rest. -/
theorem text_eq_iff : d'.text = d.text ↔
    d'.apType = d.apType ∧ join d'.account_ d'.fields = join d.account_ d.fields := by
  constructor
  · intro h
    obtain ⟨hap, h⟩ := eq_of_append_cons (not_mem_decimalInt (by decide) (by decide) _)
      (not_mem_decimalInt (by decide) (by decide) _) (List.append_cancel_left h)
    exact ⟨decimalInt_injective hap, List.append_cancel_left h⟩
  · rintro ⟨hap, h⟩
    rw [text, text, hap, h]

theorem not_mem_mark {w v : Bytes} (hw : 0 ∉ w) (hv : 0 ∉ v) (n : ℕ) :
    (0 : UInt8) ∉ w ++ decimal n ++ v := by
  have hn : (0 : UInt8) ∉ decimal n := not_mem_decimal (by decide) n
  simp [hw, hv, hn]

theorem nulFree_iff (d : QueryData) : d.NulFree ↔ 0 ∉ d.text := by
  have hsdk : (0 : UInt8) ∉ sdk_id := by decide
  have hap : (0 : UInt8) ∉ decimalInt d.apType := not_mem_decimalInt (by decide) (by decide) _
  have hacc : (0 : UInt8) ∉ account := by decide
  have htok : (0 : UInt8) ∉ token := by decide
  have hserver : (0 : UInt8) ∉ serverMark d.areaGroup := not_mem_mark (by decide) (by decide) _
  have hreserve : (0 : UInt8) ∉ reserveMark d.reserve_ := not_mem_mark (by decide) (by decide) _
  simp [NulFree, text, join, fields, hsdk, hap, hacc, htok, hserver, hreserve]

/-- Which queries can be read in one way only. -/
theorem text_unique_iff (hnul : d.NulFree) :
    (∀ d' : QueryData, d'.NulFree → d'.text = d.text → d' = d) ↔ Plain marks d.account_ d.fields := by
  rw [← unique_iff separators_marks d.fits_fields]
  constructor
  · intro h f r hr hjoin
    obtain ⟨d', hap, rfl, rfl⟩ := exists_of_fits d.apType f hr
    have htext := text_eq_iff.mpr ⟨hap, hjoin⟩
    have hnul' : d'.NulFree := by
      rw [nulFree_iff, htext, ← nulFree_iff]
      exact hnul
    obtain rfl := h d' hnul' htext
    exact ⟨rfl, rfl⟩
  · intro h d' _ htext
    obtain ⟨hap, hjoin⟩ := text_eq_iff.mp htext
    obtain ⟨hacc, hf⟩ := h _ _ d'.fits_fields hjoin
    exact eq_of_fields hap hacc hf

/-- The length of the query. -/
def size (d : QueryData) : ℕ :=
  (decimalInt d.apType).length + d.account_.length + d.token_.length +
    (decimal d.areaGroup.toNat).length + d.invite_.length + (decimal d.reserve_.toNat).length +
    d.ip.length + 62

theorem length_text (d : QueryData) : d.text.length = d.size := by
  have hsdk : sdk_id.length = 8 := rfl
  have haccount : account.length = 9 := rfl
  have htoken : token.length = 7 := rfl
  have hserver : (serverMark d.areaGroup).length = (decimal d.areaGroup.toNat).length + 18 := by
    simp only [serverMark, List.length_append]
    exact Nat.add_right_comm 10 _ 8 ▸ Nat.add_comm _ _
  have hreserve : (reserveMark d.reserve_).length = (decimal d.reserve_.toNat).length + 20 := by
    simp only [reserveMark, List.length_append]
    exact Nat.add_right_comm 9 _ 11 ▸ Nat.add_comm _ _
  simp only [text, join, fields, List.length_append, hsdk, haccount, htoken, hserver, hreserve, size]
  omega

/-! ### C strings -/

theorem cString_eq_self {x : Bytes} (h : 0 ∉ x) : cString x = x := by
  apply List.takeWhile_eq_self_iff.mpr
  intro b hb
  simp only [ne_eq, decide_not, Bool.not_eq_true', decide_eq_false_iff_not]
  rintro rfl
  exact h hb

theorem not_mem_cString (x : Bytes) : 0 ∉ cString x := by
  intro h
  have := List.mem_takeWhile_imp h
  simp at this

theorem cString_append_nul (x : Bytes) : cString (x ++ [0]) = cString x := by
  induction x with
  | nil => rfl
  | cons b x ih =>
      simp only [cString, List.cons_append, List.takeWhile_cons] at ih ⊢
      rw [ih]

theorem cStrings_of_nulFree (h : d.NulFree) : d.cStrings = d := by
  obtain ⟨h₁, h₂, h₃, h₄⟩ := h
  rw [cStrings, cString_eq_self h₁, cString_eq_self h₂, cString_eq_self h₃, cString_eq_self h₄]

theorem nulFree_cStrings (d : QueryData) : d.cStrings.NulFree :=
  ⟨not_mem_cString _, not_mem_cString _, not_mem_cString _, not_mem_cString _⟩

end QueryData

/-! ### Ambiguous queries -/

/-- Nobody can mistake the data: no string has a zero byte, none has a text in it that marks its
beginning or its end, and the query fits into the buffer, with the login URL before it. -/
structure Unmistakable (loginUrl : Bytes) (d : QueryData) : Prop where
  nulFree : d.NulFree
  noToken : ¬ token <:+: d.account_ ∧ ¬ token <:+: d.token_
  noServer : ∀ n, ¬ QueryData.serverMark n <:+: d.token_ ∧ ¬ QueryData.serverMark n <:+: d.invite_
  noReserve : ∀ n, ¬ QueryData.reserveMark n <:+: d.invite_ ∧ ¬ QueryData.reserveMark n <:+: d.ip
  short : (cString loginUrl).length + d.size < 2046

theorem plain_fields_iff (d : QueryData) : Plain marks d.account_ d.fields ↔
    (¬ token <:+: d.account_ ∧ ¬ token <:+: d.token_) ∧
    (∀ n, ¬ QueryData.serverMark n <:+: d.token_ ∧ ¬ QueryData.serverMark n <:+: d.invite_) ∧
    ∀ n, ¬ QueryData.reserveMark n <:+: d.invite_ ∧ ¬ QueryData.reserveMark n <:+: d.ip := by
  simp [Plain, marks, QueryData.fields]

/-- A text that does not fill the buffer is not cut. -/
theorem eq_of_take_eq {x y : Bytes} {n : ℕ} (h : x.take n = y.take n) (hy : y.length < n) : x = y := by
  have hlen := congrArg List.length h
  rw [List.length_take, List.length_take] at hlen
  rwa [List.take_of_length_le (by omega), List.take_of_length_le (by omega)] at h

section

variable {loginUrl : Bytes} (hurl : loginUrl ≠ []) (a : AuthInfo)

/-- No other data without zero bytes have the same URL. -/
def Alone (loginUrl : Bytes) (a : AuthInfo) : Prop :=
  ∀ a', (queryData a').NulFree → queryData a' ≠ queryData a →
    checkLoginTokent loginUrl a' ≠ checkLoginTokent loginUrl a

include hurl

/-- A zero byte at the end of the account makes no difference. -/
theorem exists_same_query :
    ∃ a', queryData a' ≠ queryData a ∧
      checkLoginTokent loginUrl a' = checkLoginTokent loginUrl a := by
  set d := queryData a with hd
  refine ⟨({ d with account_ := d.account_ ++ [0] } : QueryData).toAuth, ?_, ?_⟩
  · rw [QueryData.queryData_toAuth]
    intro h
    have h := congrArg QueryData.account_ h
    simp at h
  · rw [checkLoginTokent_eq hurl, checkLoginTokent_eq hurl, QueryData.queryData_toAuth, ← hd,
      QueryData.cStrings, QueryData.cString_append_nul]
    rfl

theorem alone_of_unmistakable (h : Unmistakable loginUrl (queryData a)) : Alone loginUrl a := by
  intro a' hnul' hne heq
  rw [checkLoginTokent_eq hurl, checkLoginTokent_eq hurl, Option.some.injEq,
    QueryData.cStrings_of_nulFree hnul', QueryData.cStrings_of_nulFree h.nulFree] at heq
  have hshort := h.short
  rw [← QueryData.length_text, ← List.length_append] at hshort
  have htext := List.append_cancel_left (eq_of_take_eq heq hshort)
  have hplain := (plain_fields_iff _).mpr ⟨h.noToken, h.noServer, h.noReserve⟩
  exact hne ((QueryData.text_unique_iff h.nulFree).mpr hplain _ hnul' htext)

theorem unmistakable_of_alone (h : Alone loginUrl a) : Unmistakable loginUrl (queryData a) := by
  set d := queryData a with hd
  -- whatever data have the same URL are the same
  have hsame (d' : QueryData) (hnul' : d'.NulFree)
      (heq : (cString loginUrl ++ d'.text).take 2046 =
        (cString loginUrl ++ d.cStrings.text).take 2046) : d' = d := by
    by_contra hne
    refine h d'.toAuth (by rwa [QueryData.queryData_toAuth]) (by rwa [QueryData.queryData_toAuth]) ?_
    rw [checkLoginTokent_eq hurl, checkLoginTokent_eq hurl, QueryData.queryData_toAuth,
      QueryData.cStrings_of_nulFree hnul', heq]
  have hnul : d.NulFree := by
    rw [← hsame d.cStrings d.nulFree_cStrings rfl]
    exact d.nulFree_cStrings
  rw [QueryData.cStrings_of_nulFree hnul] at hsame
  have hplain : Plain marks d.account_ d.fields := by
    apply (QueryData.text_unique_iff hnul).mp
    intro d' hnul' htext
    exact hsame d' hnul' (by rw [htext])
  obtain ⟨hnoToken, hnoServer, hnoReserve⟩ := (plain_fields_iff d).mp hplain
  refine ⟨hnul, hnoToken, hnoServer, hnoReserve, ?_⟩
  by_contra hlong
  -- what comes behind the end of the buffer is lost
  set d' : QueryData := { d with ip := d.ip ++ [65] } with hd'
  have hnul' : d'.NulFree := by
    obtain ⟨h₁, h₂, h₃, h₄⟩ := hnul
    exact ⟨h₁, h₂, h₃, by simp [hd', h₄]⟩
  have htext : d'.text = d.text ++ [65] := by
    simp [hd', QueryData.text, QueryData.fields, join]
  have hlen : 2046 ≤ (cString loginUrl ++ d.text).length := by
    rw [List.length_append, QueryData.length_text]
    omega
  have hip := congrArg QueryData.ip (hsame d' hnul' (by
    rw [htext, ← List.append_assoc, List.take_append_of_le_length hlen]))
  simp [hd'] at hip

end

/-- **When a query is unambiguous.**  No data are safe from all other data, because of the zero
bytes.  From those without zero bytes, exactly the unmistakable ones are. -/
theorem query_unambiguous_iff (loginUrl : Bytes) (a : AuthInfo) (hurl : loginUrl ≠ []) :
    (∃ a', queryData a' ≠ queryData a ∧
      checkLoginTokent loginUrl a' = checkLoginTokent loginUrl a) ∧
    (Alone loginUrl a ↔ Unmistakable loginUrl (queryData a)) :=
  ⟨exists_same_query hurl a, unmistakable_of_alone hurl a, alone_of_unmistakable hurl a⟩

/-- Every text between two strings begins with `&`, so strings without it are safe. -/
theorem unmistakable_of_not_mem {loginUrl : Bytes} {d : QueryData} (hnul : d.NulFree)
    (hacc : 38 ∉ d.account_) (htok : 38 ∉ d.token_) (hinv : 38 ∉ d.invite_) (hip : 38 ∉ d.ip)
    (hshort : (cString loginUrl).length + d.size < 2046) : Unmistakable loginUrl d := by
  have hno {mark x : Bytes} (hx : 38 ∉ x) (hmark : 38 ∈ mark) : ¬ mark <:+: x :=
    fun h => hx (h.subset hmark)
  have htoken : 38 ∈ token := List.mem_cons_self
  have hserver (n : UInt32) : 38 ∈ QueryData.serverMark n := List.mem_cons_self
  have hreserve (n : UInt32) : 38 ∈ QueryData.reserveMark n := List.mem_cons_self
  exact ⟨hnul, ⟨hno hacc htoken, hno htok htoken⟩,
    fun n => ⟨hno htok (hserver n), hno hinv (hserver n)⟩,
    fun n => ⟨hno hinv (hreserve n), hno hip (hreserve n)⟩, hshort⟩

/-- The account `A` with the token `B`, from `7.0.0.1`. -/
def plainQuery : QueryData := ⟨[65], [66], 1, 2, [], 3, [55, 46, 48, 46, 48, 46, 49]⟩

theorem query_unambiguous_plain : Unmistakable [117] plainQuery ∧ Alone [117] plainQuery.toAuth := by
  have hok : Unmistakable [117] plainQuery :=
    unmistakable_of_not_mem (by simp [QueryData.NulFree, plainQuery]) (by decide) (by decide)
      (by decide) (by decide) (by decide +kernel)
  exact ⟨hok, (query_unambiguous_iff [117] plainQuery.toAuth (by decide)).2.mpr hok⟩

/-- The account `A` with the token `B&token=C`, and the account `A&token=B` with the token `C`. -/
theorem query_of_another_account :
    queryData ({ plainQuery with token_ := [66] ++ token ++ [67] } : QueryData).toAuth ≠
      queryData ({ plainQuery with account_ := [65] ++ token ++ [66], token_ := [67] } :
        QueryData).toAuth ∧
    checkLoginTokent [117] ({ plainQuery with token_ := [66] ++ token ++ [67] } : QueryData).toAuth =
      checkLoginTokent [117] ({ plainQuery with account_ := [65] ++ token ++ [66], token_ := [67] } :
        QueryData).toAuth := by
  constructor
  · decide
  · decide +kernel

end BlackSwan.APMgrHandler
