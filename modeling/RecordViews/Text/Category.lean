import RecordViews.Text.CodePoints

/-!
The general category of every code point, and the character classes built from it: what an
identifier may start and go on with, letters and digits, blanks, and what a printed string shows
as it is. ASCII characters are answered without the table.
-/

namespace RecordViews.Text

inductive Category where
  | upperLetter
  | lowerLetter
  | titleLetter
  | modifierLetter
  | otherLetter
  | nonspacingMark
  | spacingMark
  | enclosingMark
  | decimalDigit
  | letterNumber
  | otherNumber
  | connector
  | dash
  | openBracket
  | closeBracket
  | openQuote
  | closeQuote
  | otherPunctuation
  | mathSymbol
  | currencySymbol
  | modifierSymbol
  | otherSymbol
  | space
  | lineSeparator
  | paragraphSeparator
  | control
  | format
  | surrogate
  | privateUse
  | unassigned
deriving DecidableEq, Repr, Inhabited

namespace Category

def ofLetter : Char → Category
  | 'A' => .upperLetter
  | 'a' => .lowerLetter
  | 'B' => .titleLetter
  | 'b' => .modifierLetter
  | 'c' => .otherLetter
  | 'd' => .nonspacingMark
  | 'e' => .spacingMark
  | 'f' => .enclosingMark
  | 'g' => .decimalDigit
  | 'h' => .letterNumber
  | 'i' => .otherNumber
  | 'j' => .connector
  | 'k' => .dash
  | 'l' => .openBracket
  | 'm' => .closeBracket
  | 'n' => .openQuote
  | 'o' => .closeQuote
  | 'p' => .otherPunctuation
  | 'q' => .mathSymbol
  | 'r' => .currencySymbol
  | 's' => .modifierSymbol
  | 't' => .otherSymbol
  | 'u' => .space
  | 'v' => .lineSeparator
  | 'w' => .paragraphSeparator
  | 'x' => .control
  | 'y' => .format
  | 'z' => .surrogate
  | 'C' => .privateUse
  | _ => .unassigned

/-- Runs of equal category, for `readRuns`. -/
def runText : String := String.join [
    "x32up3rp3lmpqpkp2g10p2q3p2A26lpmsjsa26lqmqx33upr4tpstcnqytstqi2sap2sicoi3pA23qA7a24qa8AaAaAa",
    "AaAaAaAaAaAaAaAaAaAaAaAaAaAaAaAaAaAaAaAaAaAaAaAaAa2AaAaAaAaAaAaAaAa2AaAaAaAaAaAaAaAaAaAaAaAa",
    "AaAaAaAaAaAaAaAaAaAaAaA2aAaAa3A2aAaA2aA3a2A4aA2aA3a3A2aA2aAaAaA2aAa2AaA2aA3aAaA2a2cAa3c4ABaA",
    "BaABaAaAaAaAaAaAaAaAa2AaAaAaAaAaAaAaAaAa2ABaAaA3aAaAaAaAaAaAaAaAaAaAaAaAaAaAaAaAaAaAaAaAaAaA",
    "aAaAaAaAaAaAaAa7A2aA2a2AaA4aAaAaAaAa69c2a26b18s4b12s14b5s7bsbs17d112AaAabsAaD2ba3pAD4s2ApA3D",
    "ADA2aA17DA9a35Aa2A3a3AaAaAaAaAaAaAaAaAaAaAaAa5AaqAaA2a2A51a48AaAaAaAaAaAaAaAaAaAaAaAaAaAaAaA",
    "aAatd5f2AaAaAaAaAaAaAaAaAaAaAaAaAaAaAaAaAaAaAaAaAaAaAaAaAaAaAaA2aAaAaAaAaAaAa2AaAaAaAaAaAaAa",
    "AaAaAaAaAaAaAaAaAaAaAaAaAaAaAaAaAaAaAaAaAaAaAaAaAaAaAaAaAaAaAaAaAaAaAaAaAaAaAaAaAaDA38D2bp6a",
    "41pkD2t2rDd45kdpd2pd2pdD8c27D4c4p2D11y6q3p2rp2t2d11pyp3c32bc10d21g10p4c2dc99pcd7ytd6b2d2td4c",
    "2g10c3t2cp14Dycdc30d27D2c89d11cD14g10c33d9b2tp3bD2dr2c22d4bd9bd3bd5D2p15Dc25d3D2pDc11D5c24sc",
    "7y2D5d9c41bd24yd32ec54dedce3d8e4de2cd7c10d2p2g10pbc15de2Dc8D2c2D2c22Dc7DcD3c4D2dce3d4D2e2D2e",
    "2dcD8eD4c2Dc3d2D2g10c2r2i6trcpdD2d2eDc6D4c2D2c22Dc7Dc2Dc2Dc2D2dDe3d2D4d2D2d3D3dD7c4DcD7g10d2",
    "c3dpD10d2eDc9Dc3Dc22Dc7Dc2Dc5D2dce3d5Dd2eDe2dD2cD15c2d2D2g10prD7cd6Dde2Dc8D2c2D2c22Dc7Dc2Dc5",
    "D2dceded4D2e2D2e2dD7d2eD4c2Dc3d2D2g10tci6D10dcDc6D3c3Dc4D3c2DcDc2D3c2D3c3D3c12D4e2de2D3e3De3",
    "dD2cD6eD14g10i3t6rtD5de3dc8Dc3Dc23Dc16D2dcd3e4Dd3Dd4D7d2Dc3Dc2D2c2d2D2g10D7pi7tcde2pc8Dc3Dc2",
    "3Dc10Dc5D2dcede5Dde2De2d2D7e2D5c3Dc2d2D2g10Dc2eD12d2e2c9Dc3Dc41d2ce3d4De3De3dctD4c3ei7c3d2D2",
    "g10i9tc6Dde2Dc18D3c24Dc9DcD2c7D3dD4e3d3DdDe8D6g10D2e2pD12c48dc2d7D4rc6bd8pg10p2D37c2DcDc5Dc2",
    "4DcDc10dc2d9cD2c5DbDd7Dg10D2c4D32ct3p15tpt3d2t6g10i10tdtdtdlmlme2c8Dc36D4d14ed5pd2c5d11Dd36D",
    "t8dt6Dt2p5t4p2D37c43e2d4ed6ed2e2d2cg10p6c6e2d2c4d3ce3c2e7c3d4c13de2d2e6dceg10e3dt2A38DAD5AD2",
    "a43pba3c329Dc4D2c7DcDc4D2c41Dc4D2c33Dc4D2c7DcDc4D2c15Dc57Dc4D2c67D2d3p9i20D3c16t10D6A86D2a6D",
    "2kc620tpc17uc26lmD3c75p3h3c8D7c18d3eD9c19d2ep2D9c18d2D12c13Dc3Dd2D12c52d2ed7e8de2d11p3bp3rcd",
    "D2g10D6i10D6p6kp4d3ydg10D6c35bc53D7c5d2c34dcD5c70D10c31Dd3e4d2e3D4e2de6d3D4tD3p2g10c30D2c5D1",
    "1c44D4c26D6g10iD3t34c23d2e2dD2p2c53eded7Ddede2d8e6d10D2dg10D6g10D6p7bp6D2d14fd31D2d12D20d4ec",
    "47ded5ede5de2c8Dp2g10p7t10d9t9p3d2ec30ed4e2d2ed3c2g10c44ded2e3ded3e2D8p4c36e8d8e2d2D3p5g10D3",
    "c3g10c30b6p2a9AaD5A43D2A3p8D8d3pd13ed7c4dc6dc2ed2cD5a44b63a13ba34b37d64AaAaAaAaAaAaAaAaAaAaA",
    "aAaAaAaAaAaAaAaAaAaAaAaAaAaAaAaAaAaAaAaAaAaAaAaAaAaAaAaAaAaAaAaAaAaAaAaAaAaAaAaAaAaAaAaAaAaA",
    "aAaAaAaAaAaAaAaAaAaAaAaAaAaAaAaAaAaAa9AaAaAaAaAaAaAaAaAaAaAaAaAaAaAaAaAaAaAaAaAaAaAaAaAaAaAa",
    "AaAaAaAaAaAaAaAaAaAaAaAaAaAaAaAaAaAaAaAaAaAa9A8a6D2A6D2a8A8a8A8a6D2A6D2a8DADADADAa8A8a14D2a8",
    "B8a8B8a8B8a5Da2A4Bsas3a3Da2A4Bs3a4D2a2A4Ds3a8A5s3D2a3Da2A4Bs2Du11y5k6p2noln2olnp8vwy5up9nop4",
    "j2p3qlmp11qpjp10uy5Dy10ibD2i6q3lmbi10q3lmDb13D3r34D14d13f4df3d12D15t2At4At2aA3a2A3atAt2qA5t6",
    "AtAtAtA4taA4ac4at2a2A2q5Aa4tqt2ati16h35Aah4it2D4q5t5q2t4qt2qt2qt7qt31q2t2qtqt31q268t8lmlmt20",
    "q2t7lmt81qt30q25t40q6t72D22t11D21i60t78i22t183qt9qt54q8t111qt248lmlmlmlmlmlmlmi30t44q5lmq31l",
    "mlmlmlmlmq16t256q131lmlmlmlmlmlmlmlmlmlmlmq63lmlmq32lmq258t48q21t2q6t39D2t138A48a48AaA3a2AaA",
    "aAaA4aAa2Aa6b2A3aAaAaAaAaAaAaAaAaAaAaAaAaAaAaAaAaAaAaAaAaAaAaAaAaAaAaAaAaAaAaAaAaAaAaAaAaAaA",
    "aAaAaAaAaAaAaAaAaAaAaAa2t6AaAad3AaD5p4ip2a38DaD5aD2c56D7bpD14dc23D9c7Dc7Dc7Dc7Dc7Dc7Dc7Dc7Dd",
    "32p2nonop3nopnop9kp2kpnop2nolmlmlmlmp5bp10k2p4kplp13t2p3lmlmlmlmkD34t26Dt89D12t214D26t16up3t",
    "bchlmlmlmlmlmt2lmlmlmlmklm2th9d4e2kb5t2h3bcpt2Dc86D2d2s2b2ckc90pb3cD5c43Dc94Dt2i4t10c32t38D9",
    "tc16t31Di10t30i8ti15t32i10t39i15t320c6592t64c21013bc1143D3t55D9c40b6p2c268bp3c16g10c2D20AaAa",
    "AaAaAaAaAaAaAaAaAaAaAaAaAaAaAaAaAaAaAaAaAacdf3pd10pbAaAaAaAaAaAaAaAaAaAaAaAaAaAab2d2c70h10d2",
    "p6D8s23b9s2AaAaAaAaAaAaAa3AaAaAaAaAaAaAaAaAaAaAaAaAaAaAaAaAaAaAaAaAaAaAaAaAaAaAaAaAaAaAaba8A",
    "aAaA2aAaAaAaAabs2AaAacAaAa3AaAaAaAaAaAaAaAaAaAaA5aA5aAaAaAaAaAaAaAaA4aAaA2aAaAaAaAaAaAaAaAD2",
    "0b4Aacb2ac7dc3dc4dc23e2d2et4dD3i6t2rtD6c52p4D8e2c50e16d2D8p2g10D6d18c6p3cpc2dg10c28d8p2c23d1",
    "1e2D11pc29D3d3ec47de2d4e2d2e3p13Dbg10D4p2c5dbc9g10c5Dc41d6e2d2e2d2D9c3dc8deD2g10D2p4c16bc6t3",
    "cedec50dcd3c2d2c5d2cdcD24c2bp2c11ed2e2p2cb2edD10c6D2c6D2c6D9c7Dc7Da43sb4a9bs2D4a80c35e2de2de",
    "2pedD2g10D6c11172D12c23D4c49D4z2048C6400c366D2c106D38a7D12a5D5cdc10qc13Dc5DcDc2Dc2Dc108s17t1",
    "6c363mlt16c64t2c54t8D32c12rt3d16p7lmpD6d16pk2j2lmlmlmlmlmlmlmlmp2lmp4j3p3Dp4klmlmlmp3qkq3Dpr",
    "p2D4c5Dc135D2yDp3rp3lmpqpkp2g10p2q3p2A26lpmsjsa26lqmqlmplmp2c10bc45b2c31D3c6D2c6D2c6D2c3D3r2",
    "qstr2Dtq4t2D10y3t2D2c12Dc26Dc19Dc2Dc15D2c14D34c123D5p3D4i45D3t9h53i4t17i2t3Dt13D3tD47t45dD13",
    "0c29D3c49D15di27D4c32i4D9c20hc8hD5c38d5D5c30Dpc36D4c8ph5D42A40a40c78D2g10D6A36D4a36D4c40D8c5",
    "2D11pA11DA15DA7DA2Da11Da15Da7Da2D3c52D12c311D9c22D10c8D24b6Db42Db9D69c6D2cDc44Dc2D3cD2c23Dpi",
    "8c23t2i7c31D8i9D48c19Dc2D5i5c22i6D3pc26D5pc26D38c56D4i2c2i16D2i46cd3Dd2D5d4c4Dc3Dc29D2d3D4di",
    "9D7p9D7c29i2pc29i3D32c8tc28d2D4i5p7D9c54D3p7c22D2i8c19D5i8c18D7p4D12i7D80c73D55A51D13a51D7i6",
    "c36d4D8g10D6g10c4bcA22D3d5kba22D8q2D208i31Dc42Dd2kD2c2D16c3bc2D8pt8D33d6c29i10cD8c22d11i4p5D",
    "22c18d4p4D38c21i7D20c23D9edec53d15p7D4i20g10dc2d2cD9d3ec45e3d4e2d2p2yp4dD10yD2c25D7g10D6d3c3",
    "6d5ed8Dg10p4ce2cD8c35dp2cD9d2ec48e3d9e2c4p4d4pedg10cpcp3Di20D11c18Dc25e3d3e2ded2p6dc2dD62c7D",
    "cDc4Dc15Dc10pD6c47de3d8D5g10D6d2e2Dc8D2c2D2c22Dc7Dc2Dc5Dd2ce2de4D2e2D2e3D2cD6eD5c5e2D2d7D3d5",
    "D11c10DcD2cDc38Dce3d6DeD2eDe4De2dedcdcp2Dp2D8d2D29c53e3d8e2d3edc4p5g10p2Dpdc3D30c48e3d6ede4d",
    "2ed2c2pcD8g10D166c47e3d4D2e4d2ed2p23c4d2D34c48e3d8e2ded2p3cD11g10D6p13D19c43dede2d6edcpD6g10",
    "D6g20D28c27D2dede2d4ed5D4g10i2p3tc7D185c44e3d9ed2pD100A32a32g10i9D12c8D2cD2c8Dc2Dc24e6De2D2d",
    "2edcecedp3D9g10D70c8D2c39e3d4D2d2e4dcpceD27cd10c40d6ecd4p8dD8cd6e2d3c46d13ed2p3cp5D13c73D7p1",
    "0D86ded3edeD88c33pD14g10D6c9Dc37ed7Dd6edcp5D10g10i19D3p2c30D2d22Ded7ed2ed2D73c7Dc2Dc38d6D3dD",
    "d2Dd7cdD8g10D6c6Dc2Dc32e5Dd2De2dedcD7g10D6c41bc2D4g10D246c19d2e2p2D7d2cec13Dc34e2d5D3e2dedp1",
    "3g10dD85cD15i21t8r4t17D13pc922D102h111Dp5D11c196D2636c97p2D13c1072y16dc6d15D10c3995D5c583D68",
    "41c30d12e3d3g10D1734c569D7c31Dg10D4p2c79Dg10D6c30D2d5pD10c48d7p5t4b4ptD10g10Di7Dc21D5c19D432",
    "b3c40b2p3g10D198A32a32i23p4D5A25D2a25D44c75D4dce55D7d4b13D64b2pbdD11e2b2h3D9c7382D41c32D97c1",
    "15D8701b4Db7Db2Dc291D15cD29c3D2cD14c4D8c396D2308c107D5c13D3c9D7c10D2td2py4D3932t240g10t3D3t4",
    "36D6t23D15t16qD15d46D2d23D9t116D60t246D10t39D2t60e2d3t3e6y8d8t2d7t30d4t61D21t66d3tD122i20D12",
    "i20D12t87D9i25D135A26a26A26a7Da18A26a26ADA2D2AD2A2D2A4DA8a4DaDa7Da11A26a26A2DA4D2A8DA7Da26A2",
    "DA4DA5DAD3A7Da26A26a26A26a26A26a26A26a26A26a26A26a28D2A25qa25qa6A25qa25qa6A25qa25qa6A25qa25q",
    "a6A25qa25qa6AaD2g50t512d55t4d50t8dt14dt2p5D15d5Dd15D1104a10ca20D6a6D213d7Dd17D2d7Dd2Dd5D5b62",
    "D33dD112c45D3d7b7D2g10D4ctD320c30dD17c44d4g10D5rD464c27bd4g10D214c30d2cg10D4pD192c31Dc3dc2dc",
    "7d2c5dD8cbD224c7Dc4Dc2Dc15Dc197D2i9d7D41A34a34d7bD4g10D4p2D785i59ti3ri4D76i45ti15D194c4Dc27D",
    "c2DcD2cDc10Dc4DcDcD6cD4cDcDcDc3Dc2DcD2cDcDcDcDcDc2DcD2c4Dc7Dc4Dc4DcDc10Dc17D5c3Dc5Dc17D52q2D",
    "270t44D4t100D12t15D2t15Dt15Dt37D10i13t161D56t29D13t44D4t9D7t2D14t6D154t251s5t729D3t17D3t13D3",
    "t218D6t12D4tD15t12D4t56D8t10D6t40D8t30D2t12D4t2D14q9D39t344D8t14D2t13D3t11D3t57DtD4t16D2t12D",
    "4t10D7t147Dt92g10tD1029c42720D32c4382D2c5774D2c7473D15c622D2466c542D1506c4939D5c8490D707463y",
    "D30y96D128d240D65040C65534D2C65534D2"]

/-- The runs of `runText` as category and closed range. -/
def runs : List (Category × Nat × Nat) :=
  (readRuns runText).map fun r => (ofLetter r.1, r.2)

def points (ks : List Category) : CodePoints :=
  ⟨CodePoints.join ((runs.filter fun r => ks.contains r.1).map (·.2))⟩

end Category

open Category CodePoints

def letters : CodePoints :=
  points [.upperLetter, .lowerLetter, .titleLetter, .modifierLetter, .otherLetter]

def marks : CodePoints :=
  points [.nonspacingMark, .spacingMark, .enclosingMark]

def numerals : CodePoints :=
  points [.decimalDigit, .letterNumber, .otherNumber]

def letterNumbers : CodePoints :=
  points [.letterNumber]

/-- Alphabetic code points beside the letters and letter numbers. -/
def otherAlphabetic : CodePoints :=
  ofGaps <| String.join [
    "837 1 29 13 576 14 1 1 1 2 1 2 1 1 72 11 48 13 1 7 16 1 101 7 4 4 2 2 4 1 35 1 30 16 102 11 ",
    "101 2 3 9 1 3 1 4 106 1 60 12 3 7 6 20 54 2 2 15 1 2 5 3 10 2 29 3 58 7 2 2 2 2 10 1 10 2 29",
    " 3 58 5 4 2 2 2 4 1 30 2 3 1 11 3 58 8 1 3 1 2 21 2 22 3 4 3 58 7 2 2 2 2 9 2 10 2 30 1 59 5",
    " 3 3 1 3 10 1 40 5 57 7 1 3 1 3 8 2 11 2 29 3 58 7 1 3 1 3 8 2 11 2 15 1 12 4 58 7 1 3 1 3 1",
    "0 1 10 2 29 3 75 6 1 1 1 8 18 2 61 1 2 7 18 1 99 1 2 6 1 2 16 1 163 19 9 11 1 36 110 12 1 1 ",
    "2 4 23 4 4 3 1 3 2 7 3 4 13 12 1 1 10 4 1652 2 30 2 30 2 30 2 66 19 188 2 34 1 118 12 4 9 22",
    "2 5 57 10 2 20 74 2 11 3 49 5 48 15 60 3 30 9 2 2 57 11 50 19 412 34 1729 52 2294 32 30836 8",
    " 34 2 354 1 8 1 23 5 88 2 50 16 1 1 57 1 38 5 28 12 45 4 48 12 37 1 67 14 12 1 8 2 45 3 50 1",
    " 1 3 2 2 5 1 44 5 5 1 237 8 20275 1 2135 5 1670 3 1 2 5 4 788 4 65 1 321 2 77 3 259 3 53 14 ",
    "45 2 11 3 45 9 9 1 61 3 36 12 18 2 57 3 48 13 14 2 92 9 2 1 6 1 2 1 157 10 23 4 58 7 2 2 2 2",
    " 10 1 10 2 84 9 1 1 2 1 1 4 1 2 103 13 1 3 106 18 237 7 2 7 29 2 82 15 1 1 106 11 103 14 257",
    " 13 247 6 1 2 2 2 3 1 1 1 142 7 2 6 4 1 28 10 42 5 1 4 18 11 46 14 200 8 199 8 1 7 83 22 1 1",
    "4 122 6 3 1 1 2 1 3 1 1 3 1 66 5 1 2 1 4 348 4 9 2 1 1 48 7 3 3 16861 17 3616 1 1 55 7 4 93 ",
    "2 19628 1 9057 7 1 17 2 7 1 2 1 5 100 1 1619 1 2 1 7 2 5 1 593 1 2024 26 6 26 6 26"]

def alphabetic : CodePoints :=
  (letters.union letterNumbers).union otherAlphabetic

def otherUppercase : CodePoints :=
  ofGaps "8544 16 838 26 117856 26 6 26 6 26"

def uppercase : CodePoints :=
  (points [.upperLetter]).union otherUppercase

def otherLowercase : CodePoints :=
  ofGaps <| String.join [
    "170 1 15 1 501 9 7 2 30 5 96 1 52 1 3457 1 3119 63 13 1 34 37 689 1 13 1 16 13 211 16 848 26",
    " 1938 2 31262 2 210 1 128 4 3 2 866 4 9 1 23574 1 2 3 1 42 1 9 55413 62"]

def lowercase : CodePoints :=
  (points [.lowerLetter]).union otherLowercase

/-- Extenders beside the marks without width. -/
def otherExtenders : CodePoints :=
  ofGaps <| String.join [
    "2494 1 24 1 358 1 24 1 102 1 24 1 232 1 1 1 4 2 1 2 9 2 103 1 24 1 119 1 15 1 2357 1 30 1 10",
    "24 1 5 1 1 1 5 2 101 1 71 2 1048 1 4129 2 31011 1 108 1 21981 2 4640 1 116 1 264 1 14 1 9 1 ",
    "96 1 9 1 2 1 1 3 5 1 224 1 12 1 241 1 262 1 633 1 12 1 1539 1 20654 2 24947 2 6 6 798381 96"]

def extenders : CodePoints :=
  (points [.nonspacingMark, .enclosingMark]).union otherExtenders

def blanks : CodePoints :=
  ofGaps "9 5 18 1 100 1 26 1 5599 1 2431 11 29 2 5 1 47 1 4000 1"

/-- Starts of names beside the letters and letter numbers. -/
def otherStart : CodePoints :=
  ofGaps "6277 2 2193 1 21 1 3948 2"

/-- Parts of names beside what starts one, marks, digits and connectors. -/
def otherContinue : CodePoints :=
  ofGaps "183 1 719 1 4065 9 1640 1 1585 2 4333 1 52841 1"

/-- What a name starts with; the one letter that belongs to the signs of syntax does not count. -/
def nameStart : CodePoints :=
  ((letters.union letterNumbers).union otherStart).diff (singleton 0x2E2F)

def nameContinue : CodePoints :=
  (nameStart.union (points [.nonspacingMark, .spacingMark, .decimalDigit, .connector])).union
    otherContinue

/-- `nameStart` without the characters whose compatible form starts with something else. -/
def identifierStart : CodePoints :=
  nameStart.diff (ofGaps
    "890 1 2744 1 127 1 8679 2 52161 6 406 2 116 1 1 1 1 1 1 1 1 1 1 1 1 1 1 1 287 2")

def identifierContinue : CodePoints :=
  nameContinue.diff (ofGaps "890 1 11552 2 52161 6 406 2 116 1 1 1 1 1 1 1 1 1 1 1 1 1 1 1")

/-- Code points with no visible shape of their own, the plain space apart. -/
def invisible : CodePoints :=
  (points [.control, .format, .surrogate, .privateUse, .unassigned, .lineSeparator,
    .paragraphSeparator, .space]).diff (singleton 32)

def isBlank (c : Char) : Bool :=
  if c.toNat < 128 then c == ' ' || (9 ≤ c.toNat && c.toNat ≤ 13) else blanks.containsChar c

def isSpacing (c : Char) : Bool :=
  isBlank c || c.toNat == 0x200E || c.toNat == 0x200F

def isIdentifierStart (c : Char) : Bool :=
  if c.toNat < 128 then c.isAlpha || c == '_' else identifierStart.containsChar c

def isIdentifierContinue (c : Char) : Bool :=
  if c.toNat < 128 then c.isAlphanum || c == '_' else identifierContinue.containsChar c

def isAlphanumeric (c : Char) : Bool :=
  if c.toNat < 128 then c.isAlphanum else alphabetic.containsChar c || numerals.containsChar c

def isUppercase (c : Char) : Bool :=
  if c.toNat < 128 then c.isUpper else uppercase.containsChar c

def isLowercase (c : Char) : Bool :=
  if c.toNat < 128 then c.isLower else lowercase.containsChar c

def isExtender (c : Char) : Bool :=
  c.toNat ≥ 128 && extenders.containsChar c

def isVisible (c : Char) : Bool :=
  if c.toNat < 128 then 32 ≤ c.toNat && c.toNat < 127 else !invisible.containsChar c

def trim (s : List Char) : List Char :=
  ((s.dropWhile isBlank).reverse.dropWhile isBlank).reverse

end RecordViews.Text
