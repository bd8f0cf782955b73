/-!
# Classes of characters

Characters that stand for numbers, and the letters, numerals and the low line that words are made of.
Most scripts have digits from zero to nine, in a row; texts of these are decimal numbers.  Other
characters stand for numbers too, such as fractions, superscripts and the numerals of Chinese, but not
for digits of decimal numbers.
-/

namespace LazyTensor

namespace Runs

/-- The lengths of runs of characters, first one outside of a class, then one inside, and so on.
Letters are the lengths from 1 on. -/
def parse (s : String) : List Nat :=
  let spread := s.toList.flatMap fun c => if c.isLower then s!" {c.toNat - 96} ".toList else [c]
  ((String.ofList spread).splitToList (!·.isDigit)).filterMap (·.toNat?)

/-- Where in its run a character of a class is, from the lengths of the runs. -/
def place? : Nat → List Nat → Option Nat
  | n, outside :: inside :: rest =>
    if n < outside then none
    else if n < outside + inside then some (n - outside)
    else place? (n - outside - inside) rest
  | _, _ => none

def isIn (n : Nat) (runs : List Nat) : Bool := (place? n runs).isSome

end Runs

namespace Numeral

def digits : List Nat := Runs.parse
  "48j1574j134j198j412j118j118j118j118j118j118j118j118j118j96j118j70j278j70j1862j38j300j128j166jfj
   182j86j134jfj35270j678j38j198jvj86j406j21270j1414j2182j812j128j60j144j278j342j118j374j102j102j
   422j102j758j246j70j19638j86j134j27764 50 2368j422j1622j4758j"

/-- The characters that stand for numbers but are no digits. -/
def others : List Nat := Runs.parse
  "178beabc2357f376f120c133g217gqi433j1077t881c255j480a1685acffj198 51be726 60 78v630 30 1385a777ay
   inc343d138j30hao32j39o325a125a934a802a4786abacaaa83a46agaaa40b30aha36a98a403a65a34aaaaa467aacfa
   116d790a533aga1408a131blcaa1005a77a1157a1843a1167a743a2567a933a2177ada124a2288a36aea43a125a4079j
   320f20789agada57a30aaa41a1801 45l57qb341 27 36d29aha134e1154hyg39i75evf160bbpb46 64i52b30c75e104
   hxh41g330f352 31 158j42d112g134t379t1349b430i871s851u1067 111 18156g798w25673t108y5454i929 59aca
   d76 45ao962m3828a98a125a62a2056a88ahaoa333ara27a6262a1543a4482a10065a38434a"

def digit? (c : Char) : Option Nat := (Runs.place? c.toNat digits).map (· % 10)

def isNumeral (c : Char) : Bool :=
  (digit? c).isSome || Runs.isIn c.toNat others

def decimal? (s : String) : Option Nat :=
  if s.isEmpty then none
  else s.toList.foldlM (fun n c => (digit? c).map (10 * n + ·)) 0

def isBlank (c : Char) : Bool :=
  let n := c.toNat
  (9 ≤ n && n ≤ 13) || (28 ≤ n && n ≤ 32) || (0x2000 ≤ n && n ≤ 0x200a) ||
    [0x85, 0xa0, 0x1680, 0x2028, 0x2029, 0x202f, 0x205f, 0x3000].contains n

def trim (cs : List Char) : List Char :=
  ((cs.dropWhile isBlank).reverse.dropWhile isBlank).reverse

/-- The integer a text stands for: blanks, a sign, and groups of digits with a low line between. -/
def integer? (s : String) : Option Int :=
  let (negative, cs) := match trim s.toList with
    | '-' :: r => (true, r)
    | '+' :: r => (false, r)
    | r => (false, r)
  let groups := (String.ofList cs).splitOn "_"
  if groups.any (·.isEmpty) then none
  else (decimal? (String.join groups)).map fun n => if negative then -(n : Int) else n

end Numeral

namespace Word

/-- The letters and numerals beyond ASCII. -/
def others : List Nat := Runs.parse
  "170agbaacbacawa31a458dlnegaaa129eabbdaafaacaaata83a139h166a38baf41 71 27dd45 43ujdba99aaobgobapa
   a30 29 89kan43ibdaevdaiacawygkexafq42 58 54caragjdjapdhbbbvagaacdcapambacdlbfbahfdbbvagababab31d
   aagjbcpiacavagabaecaraobdjiakhbbbvagabaeca30bacdjagkaafccadcbaaabcbccclvaumrhacawapcazcbabbdjhga
   adhacawajaeca31babdjabqiaca41bapaecajdsafercxaiaabg31jq48ablgij39baaaeaxaaajabiabeaaijbd32a31tlh
   a36 27e115 43tkffddcacbgcdmlaajf38aaeab43a333adbgaaadb41adb33adbgaaadboa57adb67ntcpp86bfc620bqaz
   e75ckgrmsnrnmaco52 35adacjfjvjf89geb34aae70j31 39 40bek44dzfk37wi53 43jfjma93 47qhcj41 30m56z36
   28jc49big43bc41dafabcae192 64 278bfb38bfbhaaaaaaa31b53agaaccagcdbfdmecag115bbfekfm101adabjaacefa
   aaaaadakbdeedaa58 726 60 78v630 30 1132 229fdcbiab38aaeab56gapwigagagagagagagag80a469cyigebed86f
   ca90ade43a94cdj32 48p32j30hao32j39o320 6592 64 22157 67 46b269c28t47p31b80 39ib103b64ebaaaexpaca
   dawmfj52n50 28jxfcaaba38jwy29g47 28kfeaya41wcahdjfwcac50aacbbebaaaxcbkgclfbfbfigaga43anf115mjf
   11172lwd49 8452 366b106 38gleeaajamaeaaababa108 33 363r64b54 40l116ea135sjgzfzk89cfbfbfbc35lazas
   abaobn34 123l45l57qb244 29c49p27d36i30e38j30b36dhae42 158bjf36d36d40h52lkaoagabakaoagab67 311ivj
   hxfa42ai69fbaa44abcabwb31b38hi48sabe33dz70 56dtb47odaca29jiw31a32 32ha28fep54jvb27ezwg80 73 55
   51m51g42lj294 31a42fb78 40hvkd27r46 28twl53z30abbam45 32ygji36ojdabah35cal48ndkkaadtkray84gaaada
   oajg47qjkhbbbvagabaecarale158 53rdejec30 48tbaahj166 47 41d36 48takj38 43magj54 27uldg185 44 116
   83lhbabhabaxoaaanj70hb39paaa28aj40gauak46sar73 263ia37qao29e30 112gaba38uaijffaba32nagj310s189ao
   u43 922 102 111q196 2636 97o1071 4049 583 8633 569g31ajf79ajf30r48pdljagaues688 87 105 75ea66m64
   baa28 6136h1238 42i8935dagaba291 45cqdh396 2308 107emcigj5702t108y135 85a71abbabbbdalaaaga65adbh
   aga28adaeaacga340byaya31aya31aya31aya31ayahb50 1792 31 481 45jgbjda321 30r44dj1254gadabaoa197bi
   48 68gadj791 59acad76 45ao194da27abaabaajadaaaafadaaaaaacabaabaaaaaaaaaabaabdagadadaaajaqecaeaq
   580m2787j1030 42720 32 4153g222b5762n7473 3103 542 1506 4939"

def isIn (c : Char) : Bool :=
  c.isAlphanum || c = '_' || (c.toNat ≥ 128 && Runs.isIn c.toNat others)

end Word

end LazyTensor
